import DockerMacos.SurfaceSystem

/-!
# What a Call Changes

Every call of a surface does one of a few things to the memory of the surface, to its overlay
and to the accelerator. `Change` lists them, and `apply_change` says that there is nothing
else. What holds at all moments of a run is then shown for a handful of changes, and not for
every call and every return of it.

## Small changes

Most calls leave alone what the invariants are about: `Quiet` (memory, overlay and accelerator
stay), `Relocked` (only the lock bits change), `Remapped` (lock bits and maps), `Tested` (the
test of `detectBlitBug`) and `withMark` (a client backing that has been replaced). The changes
are put together from these and from the functions of the source that do more: `allocBacking`,
`releaseBacking`, `surfaceVideoOff`, `videoReshape` and `allocStreamID`.

## Two halves

Memory and video do not meet: what memory does keeps the streams and overlays of the
accelerator (`VideoKept`), and what video does keeps VRAM and the guest memory regions
(`MemoryKept`). An invariant of one half is therefore shown for the changes of that half only.

## Main definitions

* `Change`: what a call does.

## Main results

* `apply_change`: a call is one of the changes.
* `allocBacking_kept`: `allocBacking` changes the backing of the surface, and nothing of the
  video.
* `Change.memory_rule`: what holds while the memory of a surface stays, and after it has been
  obtained or released, holds after every call.
-/

namespace DockerMacos

namespace Surface

/-! ### Small changes -/

/-- The memory, the overlay and the accelerator of a surface stay; only an open surface finds
its way to the screen. -/
structure Quiet (s t : Surface) : Prop where
  provider : t.provider = s.provider
  backing : t.backing = s.backing
  video : t.video = s.video
  videoMode : t.videoMode = s.videoMode
  screenInfo : t.screenInfo = s.screenInfo
  front : t.haveScreenObject = true → s.haveScreenObject = true ∨ s.provider = true

/-- Only the lock bits change. -/
def Relocked (s t : Surface) : Prop :=
  ∃ r w c k, t = { s with
    lockedRead := r
    lockedWrite := w
    lockedContext := c
    skipWriteLockOnce := k }

/-- Only lock bits and maps change. -/
def Remapped (a : Accel) (s : Surface) (b : Accel) (t : Surface) : Prop :=
  ∃ n m₀ m₁ u, b = { a with nextId := a.nextId + n } ∧ Relocked s u ∧
    t = { u with backing := { u.backing with map0 := m₀, map1 := m₁ } }

/-- The mark of the transfer buffer: a client backing that has been replaced. -/
def withMark (s : Surface) (g : ℕ) : Surface :=
  { s with backing := { s.backing with vtb := { s.backing.vtb with gartPtr := g } } }

/-- What `Start3D` does to the accelerator: nothing, or the test of `detectBlitBug`. -/
def Tested (a b : Accel) : Prop :=
  b = a ∨ ∃ env, b = { (detectBlitBug a env).2 with blitBugResult := (detectBlitBug a env).1 }

/-- The call needs memory: it comes to `allocBacking`. -/
def memoryCall (s : Surface) : SurfaceOp → Option BackingEnv
  | .readLock infoOk env =>
      if infoOk && s.haveID && s.isSourceValid && !s.lockedRead && !s.isClientBackingValid then
        some env
      else none
  | .writeLock infoOk env =>
      if infoOk && s.haveID && s.isSourceValid && (s.skipWriteLockOnce || !s.lockedWrite) &&
          !s.isClientBackingValid then some env
      else none
  | .contextLock argsOk env _ =>
      if argsOk && s.haveID && s.isSourceValid && !s.lockedContext then some env else none
  | .copyFramebuffer region size env _ =>
      if !region.all (size < ·.size) && s.haveID && s.isSourceValid && !s.videoMode &&
          s.surfaceFormat == .x8r8g8b8 then some env
      else none
  | .copySurface source region size env _ =>
      if !region.all (size < ·.size) && s.haveID && s.isSourceValid && source.haveID &&
          source.isBackingValid && s.surfaceFormat == source.surfaceFormat &&
          s.bytesPerPixel == source.bytesPerPixel then some env
      else none
  | _ => none

/-- `surface_flush_video` comes to `AllocStreamID`. -/
def flushesVideo (s : Surface) : Bool :=
  s.lastRegion.isSome && s.haveID && s.isBackingValid && s.videoMode && s.provider &&
    !s.video.unit.enabled

/-- No change is a quiet one. -/
theorem Quiet.refl (s : Surface) : Quiet s s := ⟨rfl, rfl, rfl, rfl, rfl, .inl⟩

/-- Quiet changes compose. -/
theorem Quiet.trans {s t u : Surface} (h : Quiet s t) (h' : Quiet t u) : Quiet s u := by
  refine ⟨h'.provider.trans h.provider, h'.backing.trans h.backing, h'.video.trans h.video,
    h'.videoMode.trans h.videoMode, h'.screenInfo.trans h.screenInfo, ?_⟩
  intro hu
  rcases h'.front hu with ht | ht
  · exact h.front ht
  · exact .inr (h.provider ▸ ht)

/-- No change leaves the lock bits, too. -/
theorem Relocked.refl (s : Surface) : Relocked s s := ⟨_, _, _, _, rfl⟩

/-- The lock bits are none of what a quiet change must leave alone. -/
theorem Relocked.quiet {s t : Surface} (h : Relocked s t) : Quiet s t := by
  obtain ⟨r, w, c, k, rfl⟩ := h
  exact ⟨rfl, rfl, rfl, rfl, rfl, .inl⟩

/-- No change leaves the maps. -/
theorem Remapped.refl (a : Accel) (s : Surface) : Remapped a s a s :=
  ⟨0, _, _, s, rfl, .refl s, rfl⟩

/-- After a change of the maps the lock bits may change once more. -/
theorem Remapped.relocked {a b : Accel} {s t u : Surface} (h : Remapped a s b t)
    (h' : Relocked t u) : Remapped a s b u := by
  obtain ⟨n, m₀, m₁, v, rfl, ⟨r, w, c, k, rfl⟩, rfl⟩ := h
  obtain ⟨r', w', c', k', rfl⟩ := h'
  exact ⟨n, m₀, m₁, { s with
    lockedRead := r'
    lockedWrite := w'
    lockedContext := c'
    skipWriteLockOnce := k' }, rfl, ⟨_, _, _, _, rfl⟩, rfl⟩

/-- Changes of the maps compose; the fresh ids of both are counted. -/
theorem Remapped.trans {a b c : Accel} {s t u : Surface} (h : Remapped a s b t)
    (h' : Remapped b t c u) : Remapped a s c u := by
  obtain ⟨n, m₀, m₁, v, rfl, ⟨r, w, c, k, rfl⟩, rfl⟩ := h
  obtain ⟨n', m₀', m₁', v', rfl, ⟨r', w', c', k', rfl⟩, rfl⟩ := h'
  refine ⟨n + n', m₀', m₁', { s with
    lockedRead := r'
    lockedWrite := w'
    lockedContext := c'
    skipWriteLockOnce := k' }, ?_, ⟨_, _, _, _, rfl⟩, rfl⟩
  rw [← Nat.add_assoc]

/-! ### The changes -/

/-- What a call does. -/
inductive Change (a : Accel) (s : Surface) : SurfaceOp → Accel → Surface → Prop
  /-- Nothing that matters here. -/
  | quiet {op : SurfaceOp} {t : Surface} : Quiet s t → Change a s op a t
  /-- A map is dropped. -/
  | unmapped {t : Surface} : Remapped a s a t → Change a s .contextUnlock a t
  /-- Memory is obtained, and mapped. -/
  | memory {op : SurfaceOp} {env : BackingEnv} {u s₁ t : Surface} {ok : Bool} {a₁ b : Accel} :
      s.memoryCall op = some env → Relocked s u → u.allocBacking a env = some (ok, a₁, s₁) →
      Remapped a₁ s₁ b t → Change a s op b t
  /-- A shape is set without an effect on the overlay. -/
  | marked {args : ShapeArgs} {g : ℕ} {t : Surface} :
      g = s.backing.vtb.gartPtr ∨ s.backing.vtb.gartPtr ≠ 0 ∧ g = 2 → Quiet (s.withMark g) t →
      Change a s (.setShape args) a t
  /-- A shape is set. -/
  | shaped {args : ShapeArgs} {g : ℕ} {u v t : Surface} {b : Accel} :
      g = s.backing.vtb.gartPtr ∨ s.backing.vtb.gartPtr ≠ 0 ∧ g = 2 → Quiet (s.withMark g) u →
      u.videoReshape a = some (b, v) → Quiet v t → Change a s (.setShape args) b t
  /-- A surface without video. -/
  | plain {apple : PixelFormat} {env : Start3DEnv} {a₁ b : Accel} {s₁ t : Surface} :
      s.surfaceVideoOff a = some (a₁, s₁) → Quiet { s₁ with videoMode := false } t →
      Tested a₁ b → Change a s (.contextSetSurface 0 apple env) b t
  /-- A surface with video. -/
  | video {vmware : ℕ} {apple : PixelFormat} {env : Start3DEnv} {t : Surface} (format : ℕ) :
      vmware ≠ 0 → a.optionNoYuv = false →
      Quiet { s with
        videoMode := true
        video := { s.video with
          unit := { s.video.unit with enabled := false }
          vmwarePixelFormat := format } } t →
      Change a s (.contextSetSurface vmware apple env) a t
  /-- There is no stream for the overlay. -/
  | streamless {a₁ : Accel} {id : ℕ} {t : Surface} : s.flushesVideo = true →
      a.allocStreamID = (id, a₁) → isIdValid id = false →
      Quiet { s with video := { s.video with streamId := id } } t → Change a s .flushVideo a₁ t
  /-- The overlay is switched on. -/
  | flushed {a₁ : Accel} {id : ℕ} {r : IOAccelDeviceRegion} {u : Surface} :
      s.flushesVideo = true → a.allocStreamID = (id, a₁) → isIdValid id = true →
      u = { s with video := { s.video with streamId := id } }.setVideoRegs.setVideoDest r →
      Change a s .flushVideo (a₁.videoSetAll id { u.video.unit with enabled := true })
        { u with video := { u.video with unit := { u.video.unit with enabled := true } } }
  /-- The surface is closed. -/
  | closed {a₁ : Accel} {u s₁ t : Surface} : Quiet s u →
      (s.provider = true → u.haveScreenObject = false) →
      s.provider = true ∧ u.surfaceVideoOff a = some (a₁, s₁) ∨
        s.provider = false ∧ a₁ = a ∧ s₁ = u →
      Quiet { (s₁.releaseBacking a₁).2 with provider := false } t →
      Change a s .close (s₁.releaseBacking a₁).1 t

/-! ### The calls -/

variable {a b : Accel} {s t : Surface} {o : Outcome}

/-- The formats and the id that `set_id_mode` sets leave the memory alone. -/
theorem setMode_quiet (s : Surface) (a : Accel) (wID : ℕ) (mode : SurfaceMode) :
    (s.setMode a wID mode).accel = a ∧ Quiet s (s.setMode a wID mode).surface := by
  rw [setMode]
  split
  · exact ⟨rfl, .refl s⟩
  · split
    · exact ⟨rfl, .refl s⟩
    · split
      · exact ⟨rfl, .refl s⟩
      · exact ⟨rfl, rfl, rfl, rfl, rfl, rfl, .inl⟩

/-- `set_id_mode` leaves the accelerator and the memory of the surface alone. -/
theorem setIdMode_quiet {wID : ℕ} {mode : SurfaceMode} {screen : IOReturn}
    (h : s.setIdMode a wID mode screen = some o) : o.accel = a ∧ Quiet s o.surface := by
  rw [setIdMode] at h
  split at h
  · split at h
    · cases h
      exact ⟨rfl, .refl s⟩
    · split at h
      · split at h
        · cases h
        · split at h
          · cases h
            exact ⟨rfl, .refl s⟩
          · cases h
            exact setMode_quiet s a wID mode
      · cases h
        exact setMode_quiet s a wID mode
  · cases h
    exact setMode_quiet s a wID mode

/-- `set_scale` changes the scale only. -/
theorem setScale_quiet (s : Surface) (a : Accel)
    (scaling : Option (IOAccelBounds × Int16 × Int16)) :
    (s.setScale a scaling).accel = a ∧ Quiet s (s.setScale a scaling).surface := by
  unfold setScale
  split
  · exact ⟨rfl, .refl s⟩
  · exact ⟨rfl, rfl, rfl, rfl, rfl, rfl, .inl⟩

/-- A context that scales its surface changes the scale only. -/
theorem contextScale_quiet (s : Surface) (a : Accel) (fixedSource : Bool) (width height : ℕ) :
    (s.contextScale a fixedSource width height).accel = a ∧
      Quiet s (s.contextScale a fixedSource width height).surface := by
  rw [contextScale]
  split
  · exact ⟨rfl, .refl s⟩
  · exact ⟨rfl, rfl, rfl, rfl, rfl, rfl, .inl⟩

/-- Forgetting the last region leaves the memory alone. -/
theorem clearLastRegion_quiet (s : Surface) : Quiet s s.clearLastRegion := by
  rw [clearLastRegion]
  split
  · exact ⟨rfl, rfl, rfl, rfl, rfl, .inl⟩
  · exact .refl s

/-- Forgetting the last region does not take the surface off the screen. -/
theorem clearLastRegion_front (s : Surface) :
    s.clearLastRegion.haveScreenObject = s.haveScreenObject := by
  rw [clearLastRegion]
  split <;> rfl

/-- `Cleanup3D` takes the surface off the screen and leaves its memory alone. -/
theorem cleanup3D_quiet (s : Surface) : Quiet s s.cleanup3D := by
  rw [cleanup3D]
  split
  · exact .refl s
  · refine ⟨rfl, rfl, rfl, rfl, rfl, ?_⟩
    rintro ⟨⟩

/-- A surface that has been cleaned up does not know its way to the screen. -/
theorem cleanup3D_front (h : s.provider = true) : s.cleanup3D.haveScreenObject = false := by
  rw [cleanup3D]
  split
  · rename_i hfront
    simp only [h, haveFrontBuffer, Bool.not_true, Bool.false_or, Bool.not_eq_true',
      Bool.or_eq_false_iff] at hfront
    exact hfront.1
  · rfl

/-- `surface_flush` changes nothing that the model keeps. -/
theorem surfaceFlush_quiet {out present : IOReturn} (h : s.surfaceFlush a out present = some o) :
    o.accel = a ∧ o.surface = s := by
  rw [surfaceFlush] at h
  split at h
  · cases h
    exact ⟨rfl, rfl⟩
  · split at h
    · cases h
      exact ⟨rfl, rfl⟩
    · split at h
      · cases h
        exact ⟨rfl, rfl⟩
      · split at h
        · cases h
        · split at h
          · cases h
            exact ⟨rfl, rfl⟩
          · split at h
            · cases h
            · split at h
              · cases h
                exact ⟨rfl, rfl⟩
              · cases h
                exact ⟨rfl, rfl⟩

/-- `Start3D` tests the accelerator at most, and leaves the memory of the surface alone. -/
theorem start3D_tested {env : Start3DEnv} (h : s.start3D a env = some (b, t)) :
    Tested a b ∧ Quiet s t := by
  rw [start3D] at h
  split at h
  · cases h
  rename_i hclosed
  have hprovider : s.provider = true := by simpa using hclosed
  split at h
  · cases h
    exact ⟨.inl rfl, rfl, rfl, rfl, rfl, rfl, fun _ => .inr hprovider⟩
  dsimp only at h
  split at h
  · cases h
    exact ⟨.inl rfl, rfl, rfl, rfl, rfl, rfl, fun _ => .inr hprovider⟩
  split at h
  · cases h
    exact ⟨.inl rfl, rfl, rfl, rfl, rfl, rfl, fun _ => .inr hprovider⟩
  split at h
  · cases h
    exact ⟨.inr ⟨env, rfl⟩, rfl, rfl, rfl, rfl, rfl, fun _ => .inr hprovider⟩
  · cases h
    exact ⟨.inl rfl, rfl, rfl, rfl, rfl, rfl, fun _ => .inr hprovider⟩

/-- A surface that knows its way to the screen is not started again. -/
theorem restart_tested {env : Start3DEnv}
    (h : (if s.haveFrontBuffer then some (a, s) else s.start3D a env) = some (b, t)) :
    Tested a b ∧ Quiet s t := by
  split at h
  · cases h
    exact ⟨.inl rfl, .refl s⟩
  · exact start3D_tested h

/-! ### Locks and copies -/

/-- A new mapping changes the next number at most. -/
theorem newMap_accel {env : BackingEnv} {m : Option MemoryMap}
    (h : s.newMap a env = some (m, b)) : ∃ n, b = { a with nextId := a.nextId + n } := by
  rw [newMap] at h
  split at h
  · cases h
  · split at h
    · cases h
      exact ⟨1, rfl⟩
    · cases h
      exact ⟨0, rfl⟩

/-- Mapping for the owner of the surface changes the maps only. -/
theorem mapBacking0_remapped {env : BackingEnv} {ok : Bool}
    (h : s.mapBacking0 a env = some (ok, b, t)) : Remapped a s b t := by
  rw [mapBacking0] at h
  split at h
  · cases h
    exact .refl a s
  · obtain ⟨⟨m, a₁⟩, hmap, heq⟩ := Option.map_eq_some_iff.mp h
    obtain ⟨n, rfl⟩ := newMap_accel hmap
    cases heq
    exact ⟨n, m, _, s, rfl, .refl s, rfl⟩

/-- Mapping for a context changes the maps only. -/
theorem mapBacking1_remapped {env : BackingEnv} {ok : Bool}
    (h : s.mapBacking1 a env = some (ok, b, t)) : Remapped a s b t := by
  rw [mapBacking1] at h
  split at h
  · cases h
    exact .refl a s
  · obtain ⟨⟨m, a₁⟩, hmap, heq⟩ := Option.map_eq_some_iff.mp h
    obtain ⟨n, rfl⟩ := newMap_accel hmap
    cases heq
    exact ⟨n, _, m, s, rfl, .refl s, rfl⟩

/-- The memory of a lock: it is allocated, and then perhaps mapped. -/
theorem allocAndMap0_cases {env : BackingEnv} {ok : Bool}
    (h : s.allocAndMap0 a env = some (ok, b, t)) :
    ∃ ok' a₁ s₁, s.allocBacking a env = some (ok', a₁, s₁) ∧ Remapped a₁ s₁ b t := by
  rw [allocAndMap0] at h
  split at h
  · rename_i a₁ s₁ halloc
    exact ⟨true, a₁, s₁, halloc, mapBacking0_remapped h⟩
  · exact ⟨ok, b, t, h, .refl b t⟩

/-- A lock of a context allocates first; what comes after changes the maps only. -/
theorem allocAndMap1_cases {env : BackingEnv} {ok : Bool}
    (h : s.allocAndMap1 a env = some (ok, b, t)) :
    ∃ ok' a₁ s₁, s.allocBacking a env = some (ok', a₁, s₁) ∧ Remapped a₁ s₁ b t := by
  rw [allocAndMap1] at h
  split at h
  · rename_i a₁ s₁ halloc
    exact ⟨true, a₁, s₁, halloc, mapBacking1_remapped h⟩
  · exact ⟨ok, b, t, h, .refl b t⟩

/-- `surface_read_lock_options` comes to one of the changes. -/
theorem readLock_change {infoOk : Bool} {env : BackingEnv}
    (h : s.readLock a infoOk env = some o) :
    Change a s (.readLock infoOk env) o.accel o.surface := by
  rw [readLock] at h
  split at h
  · cases h
    exact .quiet (.refl s)
  rename_i hinfo
  split at h
  · cases h
    exact .quiet (.refl s)
  rename_i hready
  split at h
  · cases h
    exact .quiet (.refl s)
  rename_i hlock
  dsimp only at h
  split at h
  · cases h
    exact .quiet ⟨rfl, rfl, rfl, rfl, rfl, .inl⟩
  · rename_i hclient
    obtain ⟨⟨ok, b, t⟩, hmem, heq⟩ := Option.map_eq_some_iff.mp h
    obtain ⟨ok', a₁, s₁, halloc, hmap⟩ := allocAndMap0_cases hmem
    have hcall : s.memoryCall (.readLock infoOk env) = some env := by
      change (if _ then some env else none) = some env
      simp_all [isClientBackingValid]
    cases ok with
    | false =>
        cases heq
        exact .memory hcall ⟨_, _, _, _, rfl⟩ halloc (hmap.relocked ⟨_, _, _, _, rfl⟩)
    | true =>
        cases heq
        exact .memory hcall ⟨_, _, _, _, rfl⟩ halloc hmap

/-- The memory of a write lock: the client's own, or new memory. -/
theorem writeLocked_cases {env : BackingEnv} (h : s.writeLocked a env = some o) :
    (o.accel = a ∧ o.surface = s) ∨ s.isClientBackingValid = false ∧
      ∃ ok a₁ s₁, s.allocBacking a env = some (ok, a₁, s₁) ∧
        Remapped a₁ s₁ o.accel o.surface := by
  rw [writeLocked] at h
  split at h
  · cases h
    exact .inl ⟨rfl, rfl⟩
  · rename_i hclient
    obtain ⟨⟨ok, b, t⟩, hmem, heq⟩ := Option.map_eq_some_iff.mp h
    obtain ⟨ok', a₁, s₁, halloc, hmap⟩ := allocAndMap0_cases hmem
    refine .inr ⟨Bool.eq_false_of_not_eq_true hclient, ok', a₁, s₁, halloc, ?_⟩
    cases ok with
    | false =>
        cases heq
        exact hmap.relocked ⟨_, _, _, _, rfl⟩
    | true =>
        cases heq
        exact hmap

/-- `surface_write_lock_options` comes to one of the changes. -/
theorem writeLock_change {infoOk : Bool} {env : BackingEnv}
    (h : s.writeLock a infoOk env = some o) :
    Change a s (.writeLock infoOk env) o.accel o.surface := by
  rw [writeLock] at h
  split at h
  · cases h
    exact .quiet (.refl s)
  rename_i hinfo
  split at h
  · cases h
    exact .quiet (.refl s)
  rename_i hready
  have hchange : ∀ u : Surface, Relocked s u → s.skipWriteLockOnce = true ∨
      s.lockedWrite = false → u.writeLocked a env = some o →
      Change a s (.writeLock infoOk env) o.accel o.surface := by
    intro u hu hlock hwrite
    rcases writeLocked_cases hwrite with ⟨haccel, hsurface⟩ | ⟨hclient, ok, a₁, s₁, halloc, hmap⟩
    · rw [haccel, hsurface]
      exact .quiet hu.quiet
    · refine .memory ?_ hu halloc hmap
      have hsame : u.isClientBackingValid = s.isClientBackingValid := by
        obtain ⟨r, w, c, k, rfl⟩ := hu
        rfl
      change (if _ then some env else none) = some env
      simp_all
  split at h
  · rename_i hskip
    exact hchange _ ⟨_, _, _, _, rfl⟩ (.inl hskip) h
  · split at h
    · cases h
      exact .quiet (.refl s)
    · rename_i hlock
      exact hchange _ ⟨_, _, _, _, rfl⟩ (.inr (Bool.eq_false_of_not_eq_true hlock)) h

/-- The black buffer of a video surface takes the place of a map. -/
theorem setupTrickBuffer_remapped (s : Surface) (a : Accel) (trick : Option (Option ℕ)) :
    Remapped a s (s.setupTrickBuffer a trick).1 (s.setupTrickBuffer a trick).2 := by
  unfold setupTrickBuffer
  split
  · exact .refl a s
  · split
    · exact .refl a s
    · exact ⟨1, _, _, s, rfl, .refl s, rfl⟩

/-- A context's lock of the memory comes to one of the changes. -/
theorem contextLock_change {argsOk : Bool} {env : BackingEnv} {trick : Option (Option ℕ)}
    (h : s.contextLock a argsOk env trick = some o) :
    Change a s (.contextLock argsOk env trick) o.accel o.surface := by
  rw [contextLock] at h
  split at h
  · cases h
    exact .quiet (.refl s)
  rename_i hargs
  split at h
  · cases h
    exact .quiet (.refl s)
  rename_i hready
  split at h
  · cases h
    exact .quiet (.refl s)
  rename_i hlock
  have hcall : s.memoryCall (.contextLock argsOk env trick) = some env := by
    change (if _ then some env else none) = some env
    simp_all
  split at h
  · cases h
  · rename_i b t hmem
    obtain ⟨ok', a₁, s₁, halloc, hmap⟩ := allocAndMap1_cases hmem
    cases h
    exact .memory hcall ⟨_, _, _, _, rfl⟩ halloc (hmap.relocked ⟨_, _, _, _, rfl⟩)
  · rename_i b t hmem
    obtain ⟨ok', a₁, s₁, halloc, hmap⟩ := allocAndMap1_cases hmem
    have hchange : ∀ c u, Remapped b t c u →
        Change a s (.contextLock argsOk env trick) c u := fun c u hu =>
      .memory hcall ⟨_, _, _, _, rfl⟩ halloc (hmap.trans hu)
    split at h
    · split at h
      · cases h
      · split at h
        · cases h
          exact hchange _ _ (setupTrickBuffer_remapped t b trick)
        · cases h
          exact hchange _ _ (.refl b t)
    · cases h
      exact hchange _ _ (.refl b t)

/-- A context's unlock comes to one of the changes. -/
theorem contextUnlock_change (s : Surface) (a : Accel) :
    Change a s .contextUnlock (s.contextUnlock a).accel (s.contextUnlock a).surface :=
  .unmapped ⟨0, _, _, { s with lockedContext := false }, rfl, ⟨_, _, _, _, rfl⟩, rfl⟩

/-- `copy_framebuffer_region_to_self` comes to one of the changes. -/
theorem copyFramebuffer_change {region : Option IOAccelDeviceRegion} {size : ℕ}
    {env : BackingEnv} {copied : IOReturn}
    (h : s.copyFramebuffer a region size env copied = some o) :
    Change a s (.copyFramebuffer region size env copied) o.accel o.surface := by
  rw [copyFramebuffer] at h
  split at h
  · cases h
    exact .quiet (.refl s)
  rename_i hregion
  split at h
  · cases h
    exact .quiet (.refl s)
  rename_i hready
  split at h
  · cases h
    exact .quiet (.refl s)
  rename_i hvideo
  split at h
  · cases h
    exact .quiet (.refl s)
  rename_i hformat
  have hcall : s.memoryCall (.copyFramebuffer region size env copied) = some env := by
    change (if _ then some env else none) = some env
    simp_all
  split at h
  · cases h
  · rename_i b t halloc
    cases h
    exact .memory hcall (.refl s) halloc (.refl b t)
  · rename_i b t halloc
    split at h
    · cases h
    · cases h
      exact .memory hcall (.refl s) halloc (.refl b t)

/-- `copy_surface_region_to_self` comes to one of the changes. -/
theorem copySurface_change {source : Surface} {region : Option IOAccelDeviceRegion} {size : ℕ}
    {env : BackingEnv} {copied : IOReturn}
    (h : s.copySurface a source region size env copied = some o) :
    Change a s (.copySurface source region size env copied) o.accel o.surface := by
  rw [copySurface] at h
  split at h
  · cases h
    exact .quiet (.refl s)
  rename_i hregion
  split at h
  · cases h
    exact .quiet (.refl s)
  rename_i hready
  split at h
  · cases h
    exact .quiet (.refl s)
  rename_i hsource
  split at h
  · cases h
    exact .quiet (.refl s)
  rename_i hformat
  have hcall : s.memoryCall (.copySurface source region size env copied) = some env := by
    change (if _ then some env else none) = some env
    simp_all
  split at h
  · cases h
  · rename_i b t halloc
    cases h
    exact .memory hcall (.refl s) halloc (.refl b t)
  · rename_i b t halloc
    cases h
    exact .memory hcall (.refl s) halloc (.refl b t)

/-! ### Shapes -/

/-- A new client backing marks the transfer buffer of an older one. -/
theorem recordClientBacking_quiet (s : Surface) (client : Option ClientBacking) :
    ∃ g, (g = s.backing.vtb.gartPtr ∨ s.backing.vtb.gartPtr ≠ 0 ∧ g = 2) ∧
      Quiet (s.withMark g) (s.recordClientBacking client) := by
  cases client with
  | none => exact ⟨s.backing.vtb.gartPtr, .inl rfl, rfl, rfl, rfl, rfl, rfl, .inl⟩
  | some c =>
      by_cases hg : s.backing.vtb.gartPtr ≠ 0
      · refine ⟨2, .inr ⟨hg, rfl⟩, rfl, ?_, rfl, rfl, rfl, .inl⟩
        simp only [recordClientBacking, withMark, if_pos hg]
      · refine ⟨s.backing.vtb.gartPtr, .inl rfl, rfl, ?_, rfl, rfl, rfl, .inl⟩
        simp only [recordClientBacking, withMark, if_neg hg]

/-- A mark of the transfer buffer does not disturb a quiet change. -/
theorem withMark_quiet (h : Quiet s t) (g : ℕ) : Quiet (s.withMark g) (t.withMark g) :=
  ⟨h.provider, by simp only [withMark, h.backing], h.video, h.videoMode, h.screenInfo, h.front⟩

/-- `set_shape_backing_length_ext` comes to one of the changes. -/
theorem setShape_change {args : ShapeArgs} (h : s.setShape a args = some o) :
    Change a s (.setShape args) o.accel o.surface := by
  rw [setShape] at h
  split at h
  · cases h
    exact .quiet (.refl s)
  rename_i rgn
  split at h
  · cases h
    exact .quiet (.refl s)
  split at h
  · cases h
    exact .quiet (.refl s)
  have hu : Quiet s { s.clearLastRegion with clientBacking := .zero } :=
    (clearLastRegion_quiet s).trans ⟨rfl, rfl, rfl, rfl, rfl, .inl⟩
  dsimp only at h
  split at h
  · cases h
    exact .quiet hu
  split at h
  · cases h
    exact .quiet hu
  split at h
  · cases h
    exact .quiet hu
  · rename_i client _
    obtain ⟨g, hg, hmark⟩ := recordClientBacking_quiet
      { s.clearLastRegion with clientBacking := .zero } client
    have hg' : g = s.backing.vtb.gartPtr ∨ s.backing.vtb.gartPtr ≠ 0 ∧ g = 2 := hu.backing ▸ hg
    have hv := (withMark_quiet hu g).trans hmark
    split at h
    · cases h
      exact .marked hg' (hv.trans ⟨rfl, rfl, rfl, rfl, rfl, .inl⟩)
    · obtain ⟨⟨b, v⟩, hshape, heq⟩ := Option.map_eq_some_iff.mp h
      cases heq
      refine .shaped hg' ?_ hshape ⟨rfl, rfl, rfl, rfl, rfl, .inl⟩
      split
      · exact hv.trans ⟨rfl, rfl, rfl, rfl, rfl, .inl⟩
      · exact hv.trans ⟨rfl, rfl, rfl, rfl, rfl, .inl⟩

/-! ### Video and closing -/

/-- `context_set_surface` comes to one of the changes. -/
theorem contextSetSurface_change {vmware : ℕ} {apple : PixelFormat} {env : Start3DEnv}
    (h : s.contextSetSurface a vmware apple env = some o) :
    Change a s (.contextSetSurface vmware apple env) o.accel o.surface := by
  rw [contextSetSurface] at h
  split at h
  · rename_i hvmware
    subst hvmware
    split at h
    · cases h
    · rename_i a₁ s₁ hoff
      obtain ⟨⟨b, t⟩, hstart, heq⟩ := Option.map_eq_some_iff.mp h
      cases heq
      have hformat : ∀ u : Surface, Quiet u (if apple = .bgra32 then
          { u with surfaceFormat := .a8r8g8b8, bytesPerPixel := 4, pixelFormat := .depth8888 }
          else u) := by
        intro u
        split
        · exact ⟨rfl, rfl, rfl, rfl, rfl, .inl⟩
        · exact .refl u
      obtain ⟨htest, hquiet⟩ := restart_tested hstart
      exact .plain hoff ((hformat _).trans hquiet) htest
  · rename_i hvmware
    split at h
    · cases h
      exact .quiet (.refl s)
    · rename_i hyuv
      cases h
      refine .video vmware hvmware (Bool.eq_false_of_not_eq_true hyuv) ?_
      refine Quiet.trans ?_ (cleanup3D_quiet _)
      exact ⟨rfl, rfl, rfl, rfl, rfl, .inl⟩

/-- `surface_flush_video` comes to one of the changes. -/
theorem surfaceFlushVideo_change (h : s.surfaceFlushVideo a = some o) :
    Change a s .flushVideo o.accel o.surface := by
  rw [surfaceFlushVideo] at h
  split at h
  · cases h
    exact .quiet (.refl s)
  rename_i r hregion
  split at h
  · cases h
    exact .quiet (.refl s)
  rename_i hready
  split at h
  · cases h
    exact .quiet (.refl s)
  rename_i hvideo
  split at h
  · cases h
  rename_i hprovider
  split at h
  · cases h
    exact .quiet (.refl s)
  rename_i henabled
  have hflush : s.flushesVideo = true := by
    simp_all [flushesVideo]
  obtain ⟨id, a₁, halloc⟩ : ∃ id a₁, a.allocStreamID = (id, a₁) := ⟨_, _, rfl⟩
  rw [halloc] at h
  dsimp only at h
  split at h
  · rename_i hid
    cases h
    refine .streamless hflush halloc ?_ (.refl _)
    simpa only [Bool.not_eq_true'] using hid
  · rename_i hid
    cases h
    refine .flushed hflush halloc ?_ rfl
    simpa only [Bool.not_eq_true', Bool.not_eq_false] using hid

/-- `clientClose` comes to one of the changes. -/
theorem clientClose_change (h : s.clientClose a = some o) :
    Change a s .close o.accel o.surface := by
  rw [clientClose] at h
  obtain ⟨⟨a₁, s₁⟩, hoff, heq⟩ := Option.map_eq_some_iff.mp h
  cases heq
  have hquiet : ∀ u : Surface, Quiet { u with provider := false }
      { u.clearLastRegion with provider := false } := fun u =>
    ⟨rfl, (clearLastRegion_quiet u).backing, (clearLastRegion_quiet u).video,
      (clearLastRegion_quiet u).videoMode, (clearLastRegion_quiet u).screenInfo,
      fun h => .inl (clearLastRegion_front u ▸ h)⟩
  split at hoff
  · rename_i hprovider
    exact .closed (cleanup3D_quiet s) cleanup3D_front (.inl ⟨hprovider, hoff⟩) (hquiet _)
  · rename_i hprovider
    cases hoff
    exact .closed (.refl s) (fun h => absurd h hprovider)
      (.inr ⟨Bool.eq_false_of_not_eq_true hprovider, rfl, rfl⟩) (hquiet _)

/-- **A call is one of the changes.** -/
theorem apply_change {op : SurfaceOp} (h : s.apply a op = some o) :
    Change a s op o.accel o.surface := by
  cases op with
  | setIdMode wID mode screen =>
      obtain ⟨haccel, hquiet⟩ := setIdMode_quiet h
      rw [haccel]
      exact .quiet hquiet
  | setScale scaling =>
      obtain ⟨haccel, hquiet⟩ := setScale_quiet s a scaling
      cases h
      rw [haccel]
      exact .quiet hquiet
  | setShape args => exact setShape_change h
  | readLock infoOk env => exact readLock_change h
  | readUnlock =>
      cases h
      exact .quiet ⟨rfl, rfl, rfl, rfl, rfl, .inl⟩
  | writeLock infoOk env => exact writeLock_change h
  | writeUnlock =>
      cases h
      exact .quiet ⟨rfl, rfl, rfl, rfl, rfl, .inl⟩
  | flush out present =>
      obtain ⟨haccel, hsurface⟩ := surfaceFlush_quiet h
      rw [haccel, hsurface]
      exact .quiet (.refl s)
  | close => exact clientClose_change h
  | contextSetSurface vmware apple env => exact contextSetSurface_change h
  | contextScale fixedSource width height =>
      obtain ⟨haccel, hquiet⟩ := contextScale_quiet s a fixedSource width height
      cases h
      rw [haccel]
      exact .quiet hquiet
  | contextLock argsOk env trick => exact contextLock_change h
  | contextUnlock =>
      cases h
      exact contextUnlock_change s a
  | copyFramebuffer region size env copied => exact copyFramebuffer_change h
  | copySurface source region size env copied => exact copySurface_change h
  | flushVideo => exact surfaceFlushVideo_change h

end Surface

/-! ### What memory leaves alone -/

/-- The stream ids and the overlays of the accelerator stay. -/
structure Accel.VideoKept (a b : Accel) : Prop where
  streamIdMask : b.streamIdMask = a.streamIdMask
  overlays : b.overlays = a.overlays
  optionNoYuv : b.optionNoYuv = a.optionNoYuv

namespace Accel.VideoKept

/-- An accelerator that is left as it is keeps its video. -/
theorem refl (a : Accel) : a.VideoKept a := ⟨rfl, rfl, rfl⟩

/-- What keeps the video twice keeps it. -/
theorem trans {a b c : Accel} (h : a.VideoKept b) (h' : b.VideoKept c) : a.VideoKept c :=
  ⟨h'.streamIdMask.trans h.streamIdMask, h'.overlays.trans h.overlays,
    h'.optionNoYuv.trans h.optionNoYuv⟩

/-- `VRAMMalloc` leaves the video alone. -/
theorem vramMalloc (a : Accel) (bytes : ℕ) (fails : Bool) :
    a.VideoKept (a.vramMalloc bytes fails).1 := by
  rw [Accel.vramMalloc]
  split <;> exact ⟨rfl, rfl, rfl⟩

/-- `VRAMRealloc` leaves the video alone. -/
theorem vramRealloc (a : Accel) (ptr bytes : ℕ) (fails : Bool) :
    a.VideoKept (a.vramRealloc ptr bytes fails).1 := by
  rw [Accel.vramRealloc]
  split <;> exact ⟨rfl, rfl, rfl⟩

/-- `VRAMFree` leaves the video alone. -/
theorem vramFree (a : Accel) (ptr : ℕ) : a.VideoKept (a.vramFree ptr) := ⟨rfl, rfl, rfl⟩

/-- `AllocGMRID` leaves the video alone. -/
theorem allocGMRID (a : Accel) : a.VideoKept a.allocGMRID.2 := by
  rw [Accel.allocGMRID]
  split <;> exact ⟨rfl, rfl, rfl⟩

/-- `FreeGMRID` leaves the video alone. -/
theorem freeGMRID (a : Accel) (gmrId : ℕ) : a.VideoKept (a.freeGMRID gmrId) := by
  rw [Accel.freeGMRID]
  split <;> exact ⟨rfl, rfl, rfl⟩

/-- `createGMR` leaves the video alone. -/
theorem createGMR (a : Accel) (gmrId : ℕ) (md : MemoryDescriptor) (created : IOReturn) :
    a.VideoKept (a.createGMR gmrId md created).2 := by
  rw [Accel.createGMR]
  split
  · exact refl a
  · split <;> exact ⟨rfl, rfl, rfl⟩

/-- `destroyGMR` leaves the video alone. -/
theorem destroyGMR (a : Accel) (gmrId : ℕ) : a.VideoKept (a.destroyGMR gmrId).2 := by
  rw [Accel.destroyGMR]
  split <;> exact ⟨rfl, rfl, rfl⟩

/-- `VendorTransferBuffer::prepare` leaves the video alone. -/
theorem prepare (vtb : VendorTransferBuffer) (provider : Bool) (a : Accel) (env : BackingEnv) :
    a.VideoKept (vtb.prepare provider a env).2.1 := by
  have halloc := allocGMRID a
  rw [VendorTransferBuffer.prepare]
  split
  · exact refl a
  split
  · exact refl a
  split
  · exact refl a
  · rename_i md _
    dsimp only
    split
    · exact halloc
    split
    · exact halloc.trans (freeGMRID _ _)
    · have hcreate := createGMR (a.allocGMRID.2.prepareMd md) a.allocGMRID.1 md env.created
      have hprepared : a.VideoKept (a.allocGMRID.2.prepareMd md) :=
        halloc.trans ⟨rfl, rfl, rfl⟩
      split
      · rename_i b heq
        rw [heq] at hcreate
        exact hprepared.trans hcreate
      · rename_i rc b _ heq
        rw [heq] at hcreate
        exact (hprepared.trans hcreate).trans
          (trans (b := b.completeMd md) ⟨rfl, rfl, rfl⟩ (freeGMRID _ _))

/-- `VendorTransferBuffer::complete` leaves the video alone. -/
theorem complete (vtb : VendorTransferBuffer) (provider : Bool) (a : Accel) :
    a.VideoKept (vtb.complete provider a).1 := by
  rw [VendorTransferBuffer.complete]
  split
  · exact refl a
  · dsimp only
    refine (destroyGMR a vtb.gmrId).trans (trans ?_ (freeGMRID _ _))
    split <;> exact ⟨rfl, rfl, rfl⟩

/-- The test of the accelerator, too, leaves them alone. -/
theorem tested {a b : Accel} (h : Surface.Tested a b) : a.VideoKept b := by
  rcases h with rfl | ⟨env, rfl⟩
  · exact refl b
  · refine trans (b := (Surface.detectBlitBug a env).2) ?_ ⟨rfl, rfl, rfl⟩
    rw [Surface.detectBlitBug]
    split
    · exact refl a
    · dsimp only
      split
      · exact vramMalloc a _ _
      · exact (vramMalloc a _ _).trans (vramFree _ _)

end Accel.VideoKept

namespace Surface

/-- Only the backing of a surface changes. -/
def Rebacked (s t : Surface) : Prop := ∃ b, t = { s with backing := b }

/-- A surface that is left as it is keeps all but its backing. -/
theorem Rebacked.refl (s : Surface) : Rebacked s s := ⟨_, rfl⟩

/-- Changes of the backing compose. -/
theorem Rebacked.trans {s t u : Surface} (h : Rebacked s t) (h' : Rebacked t u) :
    Rebacked s u := by
  obtain ⟨b, rfl⟩ := h
  obtain ⟨b', rfl⟩ := h'
  exact ⟨b', rfl⟩

variable {a b : Accel} {s t : Surface} {env : BackingEnv}

/-- `releaseBacking` changes the backing, and nothing of the video. -/
theorem releaseBacking_kept (s : Surface) (a : Accel) :
    a.VideoKept (s.releaseBacking a).1 ∧ Rebacked s (s.releaseBacking a).2 := by
  refine ⟨?_, _, rfl⟩
  rw [releaseBacking]
  dsimp only
  split
  · exact (Accel.VideoKept.complete _ _ _).trans (.vramFree _ _)
  · exact .complete _ _ _

/-- Preparing a memory descriptor changes the backing, and nothing of the video. -/
theorem prepareBacking_kept (s : Surface) (a : Accel) (env : BackingEnv)
    (md : MemoryDescriptor) (gartPtr : ℕ) :
    a.VideoKept (s.prepareBacking a env md gartPtr).2.1 ∧
      Rebacked s (s.prepareBacking a env md gartPtr).2.2 := by
  have hkept := Accel.VideoKept.prepare { s.backing.vtb with md := some md } s.provider a env
  rw [prepareBacking]
  split
  · rename_i heq
    rw [heq] at hkept
    exact ⟨hkept, _, rfl⟩
  · rename_i heq
    rw [heq] at hkept
    exact ⟨hkept, _, rfl⟩

/-- Wrapping the memory of the client changes the backing, and nothing of the video. -/
theorem wrapClient_kept (s : Surface) (a : Accel) (env : BackingEnv) :
    a.VideoKept (s.wrapClient a env).2.1 ∧ Rebacked s (s.wrapClient a env).2.2 := by
  rw [wrapClient]
  dsimp only
  split
  · obtain ⟨hkept, hback⟩ := prepareBacking_kept { s with backing := { s.backing with
      offset := pageResidue s.clientBacking.addr
      size := s.scale.byteSize } } { a with nextId := a.nextId + 1 } env
      ⟨a.nextId, .client (s.clientBacking.addr / pageSize * pageSize)⟩ 1
    exact ⟨.trans (b := { a with nextId := a.nextId + 1 }) ⟨rfl, rfl, rfl⟩ hkept,
      .trans ⟨_, rfl⟩ hback⟩
  · exact ⟨.refl a, _, rfl⟩

/-- The branch of `allocBacking` for the memory of the client changes the backing only. -/
theorem wrapClientBacking_kept (s : Surface) (a : Accel) (env : BackingEnv) :
    a.VideoKept (s.wrapClientBacking a env).2.1 ∧
      Rebacked s (s.wrapClientBacking a env).2.2 := by
  have hrelease := releaseBacking_kept s a
  have hwrap := wrapClient_kept (s.releaseBacking a).2 (s.releaseBacking a).1 env
  rw [wrapClientBacking]
  split
  · exact ⟨hrelease.1.trans hwrap.1, hrelease.2.trans hwrap.2⟩
  · split
    · exact ⟨.refl a, .refl s⟩
    · exact ⟨hrelease.1.trans hwrap.1, hrelease.2.trans hwrap.2⟩
  · exact wrapClient_kept s a env

/-- The region for a block of VRAM changes the backing, and nothing of the video. -/
theorem allocGMRBacking_kept (s : Surface) (a : Accel) (env : BackingEnv) :
    a.VideoKept (s.allocGMRBacking a env).2.1 ∧ Rebacked s (s.allocGMRBacking a env).2.2 := by
  rw [allocGMRBacking]
  split
  · obtain ⟨hkept, hback⟩ := prepareBacking_kept
      { s with backing := { s.backing with offset := 0 } } { a with nextId := a.nextId + 1 } env
      ⟨a.nextId, .buffer a.nextId⟩ 0
    exact ⟨.trans (b := { a with nextId := a.nextId + 1 }) ⟨rfl, rfl, rfl⟩ hkept,
      .trans ⟨_, rfl⟩ hback⟩
  · exact ⟨.refl a, .refl s⟩

/-- A new block changes the backing, and nothing of the video. -/
theorem allocNew_kept {ok : Bool} (h : s.allocNew a env = some (ok, b, t)) :
    a.VideoKept b ∧ Rebacked s t := by
  have hrealloc := Accel.VideoKept.vramRealloc a s.backing.self s.scale.byteSize env.vramFails
  rw [allocNew] at h
  split at h
  · cases h
  dsimp only at h
  split at h
  · obtain ⟨hkept, hback⟩ := allocGMRBacking_kept { s with backing := { s.backing with
      size := s.scale.byteSize
      self := (a.vramRealloc s.backing.self s.scale.byteSize env.vramFails).2 } }
      (a.vramRealloc s.backing.self s.scale.byteSize env.vramFails).1 env
    rw [Option.some.injEq] at h
    rw [h] at hkept hback
    exact ⟨hrealloc.trans hkept, .trans ⟨_, rfl⟩ hback⟩
  · cases h
    exact ⟨hrealloc, _, rfl⟩

/-- **`allocBacking`** changes the backing of the surface, and nothing of the video. -/
theorem allocBacking_kept {ok : Bool} (h : s.allocBacking a env = some (ok, b, t)) :
    a.VideoKept b ∧ Rebacked s t := by
  rw [allocBacking] at h
  split at h
  · have hwrap := wrapClientBacking_kept s a env
    rw [Option.some.injEq] at h
    rw [h] at hwrap
    exact hwrap
  split at h
  · split at h
    · cases h
      exact ⟨.refl a, .refl s⟩
    · obtain ⟨hkept, hback⟩ := allocNew_kept h
      exact ⟨(Accel.VideoKept.complete _ _ _).trans hkept, .trans ⟨_, rfl⟩ hback⟩
  · obtain ⟨hkept, hback⟩ := allocNew_kept h
    exact ⟨(releaseBacking_kept s a).1.trans hkept, (releaseBacking_kept s a).2.trans hback⟩
  · exact allocNew_kept h

/-- What a start does. -/
theorem start_tested {o : Outcome} {screenInfo : ScreenInfo} {env : Start3DEnv}
    (h : s.start a screenInfo env = some o) :
    Tested a o.accel ∧ Quiet { s with provider := true, screenInfo := screenInfo } o.surface := by
  obtain ⟨⟨b, t⟩, hstart, heq⟩ := Option.map_eq_some_iff.mp h
  cases heq
  exact start3D_tested hstart

end Surface

/-! ### What video leaves alone -/

/-- VRAM and the guest memory regions of the accelerator stay. -/
structure Accel.MemoryKept (a b : Accel) : Prop where
  vram : b.vram = a.vram
  gmrIdMask : b.gmrIdMask = a.gmrIdMask
  hasGmr : b.hasGmr = a.hasGmr
  gmrs : b.gmrs = a.gmrs
  prepared : b.prepared = a.prepared
  nextId : b.nextId = a.nextId
  log : b.log = a.log

namespace Surface

variable {a b : Accel} {s t : Surface}

/-- A new place of the overlay changes the video of the surface, and no memory. -/
theorem videoReshape_kept (h : s.videoReshape a = some (b, t)) :
    a.MemoryKept b ∧ ∃ v, t = { s with video := v } := by
  rw [videoReshape] at h
  split at h
  · cases h
    exact ⟨⟨rfl, rfl, rfl, rfl, rfl, rfl, rfl⟩, _, rfl⟩
  split at h
  · cases h
    exact ⟨⟨rfl, rfl, rfl, rfl, rfl, rfl, rfl⟩, _, rfl⟩
  dsimp only at h
  split at h
  · cases h
    exact ⟨⟨rfl, rfl, rfl, rfl, rfl, rfl, rfl⟩, _, rfl⟩
  · cases h

/-- Switching the video off changes the video of the surface, and no memory. -/
theorem surfaceVideoOff_kept (h : s.surfaceVideoOff a = some (b, t)) :
    a.MemoryKept b ∧ ∃ v, t = { s with video := v } := by
  rw [surfaceVideoOff] at h
  split at h
  · cases h
    exact ⟨⟨rfl, rfl, rfl, rfl, rfl, rfl, rfl⟩, _, rfl⟩
  split at h
  · cases h
    refine ⟨?_, _, rfl⟩
    rw [Accel.freeStreamID]
    split <;> exact ⟨rfl, rfl, rfl, rfl, rfl, rfl, rfl⟩
  · cases h

/-- A stream id is taken without touching memory. -/
theorem allocStreamID_kept {id : ℕ} (h : a.allocStreamID = (id, b)) : a.MemoryKept b := by
  rw [Accel.allocStreamID] at h
  split at h
  · cases h
    exact ⟨rfl, rfl, rfl, rfl, rfl, rfl, rfl⟩
  · cases h
    exact ⟨rfl, rfl, rfl, rfl, rfl, rfl, rfl⟩

/-- The memory of a surface stays where it is: its maps and the mark of its transfer buffer may
change, and VRAM may have been tested. -/
structure Steady (a : Accel) (s : Surface) (b : Accel) (t : Surface) : Prop where
  vram : b.vram = a.vram ∨ ∃ env, b.vram = (detectBlitBug a env).2.vram
  gmrIdMask : b.gmrIdMask = a.gmrIdMask
  hasGmr : b.hasGmr = a.hasGmr
  gmrs : b.gmrs = a.gmrs
  prepared : b.prepared = a.prepared
  nextId : a.nextId ≤ b.nextId
  log : b.log = a.log
  self : t.backing.self = s.backing.self
  offset : t.backing.offset = s.backing.offset
  size : t.backing.size = s.backing.size
  md : t.backing.vtb.md = s.backing.vtb.md
  gmrId : t.backing.vtb.gmrId = s.backing.vtb.gmrId
  mark : t.backing.vtb.gartPtr = s.backing.vtb.gartPtr ∨
    s.backing.vtb.gartPtr ≠ 0 ∧ t.backing.vtb.gartPtr = 2
  provider : t.provider = s.provider
  screenInfo : t.screenInfo = s.screenInfo

/-- Where the accelerator keeps the memory and the surface its backing, the memory stays. -/
theorem Steady.of_kept (h : a.MemoryKept b) (hbacking : t.backing = s.backing)
    (hprovider : t.provider = s.provider) (hscreen : t.screenInfo = s.screenInfo) :
    Steady a s b t :=
  ⟨.inl h.vram, h.gmrIdMask, h.hasGmr, h.gmrs, h.prepared, h.nextId.ge, h.log, by rw [hbacking],
    by rw [hbacking], by rw [hbacking], by rw [hbacking], by rw [hbacking],
    .inl (by rw [hbacking]), hprovider, hscreen⟩

/-- A quiet change leaves the memory where it is. -/
theorem Quiet.steady (h : Quiet s t) (a : Accel) : Steady a s a t :=
  .of_kept ⟨rfl, rfl, rfl, rfl, rfl, rfl, rfl⟩ h.backing h.provider h.screenInfo

/-- A change of the lock bits leaves the memory where it is. -/
theorem Relocked.steady (h : Relocked s t) (a : Accel) : Steady a s a t := h.quiet.steady a

/-- A change of the maps leaves the memory where it is. -/
theorem Remapped.steady (h : Remapped a s b t) : Steady a s b t := by
  obtain ⟨n, m₀, m₁, u, rfl, ⟨r, w, c, k, rfl⟩, rfl⟩ := h
  exact ⟨.inl rfl, rfl, rfl, rfl, rfl, Nat.le_add_right _ _, rfl, rfl, rfl, rfl, rfl, rfl,
    .inl rfl, rfl, rfl⟩

/-- The test of the blitter leaves the memory of every surface where it is. -/
theorem Tested.steady (h : Tested a b) (s : Surface) : Steady a s b s := by
  rcases h with rfl | ⟨env, rfl⟩
  · exact (Quiet.refl s).steady b
  · have hgmr : (detectBlitBug a env).2 = { a with vram := (detectBlitBug a env).2.vram } := by
      rw [detectBlitBug, Accel.vramMalloc]
      split
      · rfl
      · dsimp only
        split
        · split <;> rfl
        · split <;> rfl
    refine ⟨.inr ⟨env, rfl⟩, ?_, ?_, ?_, ?_, ?_, ?_, rfl, rfl, rfl, rfl, rfl, .inl rfl, rfl, rfl⟩
    all_goals rw [hgmr]

/-- **The rule of the memory**: what holds while the memory of a surface stays, and after it has
been obtained or released, holds after every call. -/
theorem Change.memory_rule {I : Accel → Surface → Prop} {op : SurfaceOp} (h : Change a s op b t)
    (hs : I a s) (hsteady : ∀ {a b s t}, I a s → Steady a s b t → I b t)
    (halloc : ∀ {u : Surface} {env : BackingEnv} {ok : Bool} {b : Accel} {t : Surface},
      s.memoryCall op = some env → Relocked s u → I a u →
      u.allocBacking a env = some (ok, b, t) → I b t)
    (hclose : ∀ {a s}, I a s →
      I (s.releaseBacking a).1 { (s.releaseBacking a).2 with provider := false }) : I b t := by
  have hmark : ∀ {g u}, g = s.backing.vtb.gartPtr ∨ s.backing.vtb.gartPtr ≠ 0 ∧ g = 2 →
      Quiet (s.withMark g) u → Steady a s a u := by
    intro g u hg hquiet
    refine ⟨.inl rfl, rfl, rfl, rfl, rfl, le_rfl, rfl, ?_, ?_, ?_, ?_, ?_, ?_, hquiet.provider,
      hquiet.screenInfo⟩
    all_goals rw [hquiet.backing]
    exacts [rfl, rfl, rfl, rfl, rfl, hg]
  cases h with
  | quiet hquiet => exact hsteady hs (hquiet.steady a)
  | unmapped hmap => exact hsteady hs hmap.steady
  | memory hcall hlock halloc' hmap =>
      exact hsteady (halloc hcall hlock (hsteady hs (hlock.steady a)) halloc') hmap.steady
  | marked hg hquiet => exact hsteady hs (hmark hg hquiet)
  | shaped hg hquiet hshape hquiet' =>
      obtain ⟨hkept, v, hv⟩ := videoReshape_kept hshape
      have hu := hsteady hs (hmark hg hquiet)
      exact hsteady (hsteady hu (.of_kept hkept (by rw [hv]) (by rw [hv]) (by rw [hv])))
        (hquiet'.steady b)
  | plain hoff hquiet htest =>
      obtain ⟨hkept, v, rfl⟩ := surfaceVideoOff_kept hoff
      have hs₁ := hsteady hs (.of_kept hkept rfl rfl rfl)
      exact hsteady (hsteady hs₁ (.of_kept ⟨rfl, rfl, rfl, rfl, rfl, rfl, rfl⟩ hquiet.backing
        hquiet.provider hquiet.screenInfo)) (htest.steady t)
  | video format hvmware hyuv hquiet =>
      exact hsteady hs (.of_kept ⟨rfl, rfl, rfl, rfl, rfl, rfl, rfl⟩ hquiet.backing
        hquiet.provider hquiet.screenInfo)
  | streamless hflush halloc' hid hquiet =>
      exact hsteady hs (.of_kept (allocStreamID_kept halloc') hquiet.backing hquiet.provider
        hquiet.screenInfo)
  | flushed hflush halloc' hid hu =>
      have hkept := allocStreamID_kept halloc'
      subst hu
      exact hsteady hs (.of_kept ⟨hkept.vram, hkept.gmrIdMask, hkept.hasGmr, hkept.gmrs,
        hkept.prepared, hkept.nextId, hkept.log⟩ rfl rfl rfl)
  | closed hquiet _ hoff hquiet' =>
      have hu := hsteady hs (hquiet.steady a)
      rcases hoff with ⟨-, hoff⟩ | ⟨-, rfl, rfl⟩
      · obtain ⟨hkept, v, hv⟩ := surfaceVideoOff_kept hoff
        exact hsteady (hclose (hsteady hu (.of_kept hkept (by rw [hv]) (by rw [hv])
          (by rw [hv])))) (hquiet'.steady _)
      · exact hsteady (hclose hu) (hquiet'.steady _)

end Surface

end DockerMacos
