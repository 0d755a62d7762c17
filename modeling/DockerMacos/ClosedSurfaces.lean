import DockerMacos.VideoMemory

/-!
# Calls of Closed Surfaces

A 2D context keeps its reference to a surface that its client has closed, and the client itself
may still call it. `clientClose` clears the pointer to the accelerator, releases the memory and
switches the overlay off, but leaves the id, the geometry and the lock bits. This module finds
out which calls follow the null pointer.

## Crashes

A call that follows the pointer to the accelerator when it is null has no outcome: the
definitions of the calls return `none` there, and nowhere else. So the question is which calls
return `none`, and it has two halves: a call of an open surface never does, and one of a closed
surface does when it comes to `allocBacking` and finds nothing that it could use.

## What a closed surface does not have

`Shut` says that only an open surface has a way to the screen, memory and an overlay. It is what
the calls keep, and from it follows that a closed surface has no backing of its own. The client's
own memory is another matter: it is recorded in the surface, survives the close, and a call that
needs no more than that gets on without the accelerator.

## Main results

* `Shut.apply_eq_none`: a call follows the null pointer just when the surface is closed and the
  call needs memory that is not the client's own.
* `closed_surface_inert`: so it is for every action in every state of every run.
-/

namespace DockerMacos

/-! ### What a closed surface does not have -/

/-- Only an open surface has a way to the screen, memory and an overlay. -/
structure Surface.Shut (s : Surface) : Prop where
  front : s.haveScreenObject = true → s.provider = true
  block : s.backing.self ≠ 0 → s.provider = true
  region : s.backing.vtb.md.isSome = true → s.provider = true
  overlay : s.video.unit.enabled = true → s.videoMode = true ∧ s.provider = true

/-- Only with an accelerator can a transfer buffer be prepared. -/
theorem VendorTransferBuffer.prepare_success {vtb vtb' : VendorTransferBuffer} {provider : Bool}
    {a b : Accel} {env : BackingEnv} (h : vtb.prepare provider a env = (.success, b, vtb')) :
    provider = true := by
  cases provider with
  | true => rfl
  | false => cases h

namespace Surface

variable {a b : Accel} {s t : Surface} {env : BackingEnv}

/-- Only an open surface gets a memory descriptor. -/
theorem prepareBacking_open (s : Surface) (a : Accel) (env : BackingEnv) (md : MemoryDescriptor)
    (gartPtr : ℕ) (h : (s.prepareBacking a env md gartPtr).2.2.backing.vtb.md.isSome = true) :
    s.provider = true := by
  rw [prepareBacking] at h
  split at h
  · rename_i heq
    exact VendorTransferBuffer.prepare_success heq
  · cases h

/-- A closed surface gets none for the memory of its client. -/
theorem wrapClient_open (s : Surface) (a : Accel) (env : BackingEnv)
    (hmd : s.backing.vtb.md.isSome = true → s.provider = true)
    (h : (s.wrapClient a env).2.2.backing.vtb.md.isSome = true) : s.provider = true := by
  rw [wrapClient] at h
  dsimp only at h
  split at h
  · have hopen := prepareBacking_open _ _ _ _ _ h
    exact hopen
  · exact hmd h

/-- With an accelerator a surface is started without a null pointer. -/
theorem start3D_ne_none (hprovider : s.provider = true) (a : Accel) (env : Start3DEnv) :
    s.start3D a env ≠ none := by
  rw [start3D, hprovider, if_neg (by decide)]
  split
  · rintro ⟨⟩
  dsimp only
  split
  · rintro ⟨⟩
  split
  · rintro ⟨⟩
  split <;> rintro ⟨⟩

/-- An open surface that is shown again does not reach for a null accelerator. -/
theorem restart_ne_none (hprovider : s.provider = true) (a : Accel) (env : Start3DEnv) :
    (if s.haveFrontBuffer then some (a, s) else s.start3D a env) ≠ none := by
  split
  · rintro ⟨⟩
  · exact start3D_ne_none hprovider a env

/-- A new block needs the accelerator. -/
theorem allocNew_eq_none {s : Surface} {a : Accel} {env : BackingEnv} :
    s.allocNew a env = none ↔ s.provider = false := by
  rw [allocNew]
  cases s.provider with
  | false => exact ⟨fun _ => rfl, fun _ => rfl⟩
  | true =>
      refine ⟨fun h => ?_, ?_⟩
      · dsimp only at h
        rw [if_neg (by decide)] at h
        split at h <;> cases h
      · rintro ⟨⟩

namespace Shut

/-- A closed surface has no backing. -/
theorem classify_closed (h : s.Shut) (hprovider : s.provider = false) :
    s.classifyBacking = .none := by
  have hself : s.backing.self = 0 := by
    by_contra hself
    rw [h.block hself] at hprovider
    cases hprovider
  have hmd : ¬ s.backing.vtb.md.isSome = true := by
    intro hmd
    rw [h.region hmd] at hprovider
    cases hprovider
  rw [classifyBacking, if_neg (not_not.mpr hself), if_neg hmd]

/-- `allocBacking` follows the null pointer just for a closed surface without client memory. -/
theorem allocBacking_eq_none (h : s.Shut) (a : Accel) (env : BackingEnv) :
    s.allocBacking a env = none ↔ s.provider = false ∧ s.clientBacking.addr = 0 := by
  rw [allocBacking]
  split
  · rename_i hclient
    refine ⟨?_, fun hc => absurd hc.2 hclient⟩
    rintro ⟨⟩
  · rename_i hclient
    have hclient' : s.clientBacking.addr = 0 := not_not.mp hclient
    have hopen : s.classifyBacking ≠ .none → s.provider = true := by
      intro hclass
      by_contra hprovider
      exact hclass (h.classify_closed (Bool.eq_false_of_not_eq_true hprovider))
    split
    · rename_i hclass
      have hprovider := hopen (by rw [hclass]; decide)
      split
      · refine ⟨?_, fun hc => ?_⟩
        · rintro ⟨⟩
        · rw [hprovider] at hc
          cases hc.1
      · dsimp only
        rw [allocNew_eq_none]
        refine ⟨fun hnone => ⟨hnone, hclient'⟩, fun hc => ?_⟩
        rw [hprovider] at hc
        cases hc.1
    · rename_i hclass
      have hprovider := hopen (by rw [hclass]; decide)
      dsimp only
      rw [allocNew_eq_none]
      refine ⟨fun hnone => ⟨hnone, hclient'⟩, fun hc => ?_⟩
      rw [hprovider] at hc
      cases hc.1
    · exact ⟨fun hnone => ⟨allocNew_eq_none.mp hnone, hclient'⟩,
        fun hc => allocNew_eq_none.mpr hc.1⟩

/-- A closed surface gets no memory from `allocBacking`. -/
theorem allocBacking_closed (h : s.Shut) {ok : Bool} (hprovider : s.provider = false)
    (halloc : s.allocBacking a env = some (ok, b, t)) : s.wrapClient a env = (ok, b, t) := by
  -- only client memory could be wrapped
  have hclient : s.clientBacking.addr ≠ 0 := by
    intro hclient
    rw [(h.allocBacking_eq_none a env).mpr ⟨hprovider, hclient⟩] at halloc
    cases halloc
  rw [Surface.allocBacking, if_pos hclient, wrapClientBacking,
    h.classify_closed hprovider] at halloc
  exact Option.some.inj halloc

/-- Where `allocBacking` succeeds, the surface is open. -/
theorem allocBacking_open (h : s.Shut) (halloc : s.allocBacking a env = some (true, b, t)) :
    s.provider = true := by
  by_contra hprovider
  rw [Bool.not_eq_true] at hprovider
  have hwrap := h.allocBacking_closed hprovider halloc
  rw [wrapClient] at hwrap
  dsimp only at hwrap
  split at hwrap
  · rw [prepareBacking] at hwrap
    split at hwrap
    · rename_i hprepare
      have hopen : s.provider = true := VendorTransferBuffer.prepare_success hprepare
      rw [hprovider] at hopen
      cases hopen
    · cases hwrap
  · cases hwrap

/-- `allocBacking` gives memory to an open surface only. -/
theorem allocBacking (h : s.Shut) {ok : Bool} (halloc : s.allocBacking a env = some (ok, b, t)) :
    t.Shut := by
  obtain ⟨-, backing, rfl⟩ := allocBacking_kept halloc
  rcases Bool.eq_false_or_eq_true s.provider with hprovider | hprovider
  · exact ⟨h.front, fun _ => hprovider, fun _ => hprovider, h.overlay⟩
  · have hwrap := h.allocBacking_closed hprovider halloc
    have hblock := wrapClient_block s a env
    have hopen := wrapClient_open s a env h.region
    rw [hwrap] at hblock hopen
    exact ⟨h.front, fun hself => h.block (hblock.self ▸ hself), hopen, h.overlay⟩

/-! ### Calls keep it so -/

/-- The same memory and overlay. -/
theorem same (h : s.Shut) (hprovider : t.provider = s.provider)
    (hself : t.backing.self = s.backing.self) (hmd : t.backing.vtb.md = s.backing.vtb.md)
    (hvideo : t.video.unit.enabled = s.video.unit.enabled) (hmode : t.videoMode = s.videoMode)
    (hfront : t.haveScreenObject = true → s.haveScreenObject = true ∨ s.provider = true) :
    t.Shut := by
  refine ⟨fun ht => ?_, ?_, ?_, ?_⟩
  · rw [hprovider]
    rcases hfront ht with hs | hs
    · exact h.front hs
    · exact hs
  · rw [hself, hprovider]
    exact h.block
  · rw [hmd, hprovider]
    exact h.region
  · rw [hvideo, hmode, hprovider]
    exact h.overlay

/-- A quiet change leaves a closed surface with nothing. -/
theorem quiet (h : s.Shut) (hquiet : s.Quiet t) : t.Shut :=
  h.same hquiet.provider (by rw [hquiet.backing]) (by rw [hquiet.backing]) (by rw [hquiet.video])
    hquiet.videoMode hquiet.front

/-- Without an overlay its mode does not matter. -/
theorem hidden (h : s.Shut) (hprovider : t.provider = s.provider)
    (hbacking : t.backing = s.backing) (hdisabled : t.video.unit.enabled = false)
    (hfront : t.haveScreenObject = true → s.haveScreenObject = true ∨ s.provider = true) :
    t.Shut := by
  refine ⟨fun ht => ?_, ?_, ?_, fun henabled => ?_⟩
  · rw [hprovider]
    rcases hfront ht with hs | hs
    · exact h.front hs
    · exact hs
  · rw [hbacking, hprovider]
    exact h.block
  · rw [hbacking, hprovider]
    exact h.region
  · rw [hdisabled] at henabled
    cases henabled

/-- So does a change of the lock bits. -/
theorem relocked (h : s.Shut) (hlock : s.Relocked t) : t.Shut := h.quiet hlock.quiet

/-- So does a mark of the transfer buffer. -/
theorem withMark (h : s.Shut) (g : ℕ) : (s.withMark g).Shut :=
  h.same rfl rfl rfl rfl rfl .inl

/-- So does a change of the maps. -/
theorem remapped (h : s.Shut) (hmap : s.Remapped a b t) : t.Shut := by
  obtain ⟨n, m₀, m₁, u, rfl, hlock, rfl⟩ := hmap
  exact (h.relocked hlock).same rfl rfl rfl rfl rfl .inl

/-- `surface_video_off` follows no null pointer, and switches the overlay off. -/
theorem videoOff (h : s.Shut) (a : Accel) :
    ∃ b t, s.surfaceVideoOff a = some (b, t) ∧ t.video.unit.enabled = false ∧ t.Shut := by
  rw [surfaceVideoOff]
  by_cases hno : (!s.videoMode || !s.video.unit.enabled) = true
  · rw [if_pos hno]
    refine ⟨a, s, rfl, Bool.eq_false_of_not_eq_true fun henabled => ?_, h⟩
    rw [(h.overlay henabled).1, henabled] at hno
    cases hno
  · rw [if_neg hno]
    have henabled : s.video.unit.enabled = true := by
      rw [Bool.or_eq_true, not_or] at hno
      simpa only [Bool.not_eq_true', Bool.not_eq_false] using hno.2
    rw [if_pos (h.overlay henabled).2]
    exact ⟨_, _, rfl, rfl, h.hidden rfl rfl rfl .inl⟩

/-- `videoReshape` follows no null pointer either. -/
theorem reshaped (h : s.Shut) (a : Accel) :
    ∃ b t, s.videoReshape a = some (b, t) ∧ t.Shut := by
  rw [videoReshape]
  by_cases hno : (!s.videoMode || !s.video.unit.enabled) = true
  · rw [if_pos hno]
    exact ⟨a, s, rfl, h⟩
  · rw [if_neg hno]
    have henabled : s.video.unit.enabled = true := by
      rw [Bool.or_eq_true, not_or] at hno
      simpa only [Bool.not_eq_true', Bool.not_eq_false] using hno.2
    cases s.lastRegion with
    | none => exact ⟨a, s, rfl, h⟩
    | some r =>
        dsimp only
        rw [if_pos (show (s.setVideoDest r).provider = true from (h.overlay henabled).2)]
        refine ⟨_, _, rfl, h.same rfl rfl rfl ?_ rfl .inl⟩
        simp only [setVideoDest]
        split <;> rfl

/-- A closed surface has no overlay that could be moved. -/
theorem videoReshape_ne_none (h : s.Shut) (a : Accel) : s.videoReshape a ≠ none := by
  obtain ⟨b, t, heq, -⟩ := h.reshaped a
  rw [heq]
  rintro ⟨⟩

/-- **A call** keeps a closed surface without memory and overlay. -/
theorem change {op : SurfaceOp} (h : s.Shut) (hchange : s.Change a op b t) : t.Shut := by
  cases hchange with
  | quiet hquiet => exact h.quiet hquiet
  | unmapped hmap => exact h.remapped hmap
  | memory hcall hlock halloc hmap =>
      exact ((h.relocked hlock).allocBacking halloc).remapped hmap
  | marked _ hquiet => exact (h.withMark _).quiet hquiet
  | shaped _ hquiet hshape hquiet' =>
      have hu := (h.withMark _).quiet hquiet
      obtain ⟨b', v, heq, hv⟩ := hu.reshaped a
      cases hshape.symm.trans heq
      exact hv.quiet hquiet'
  | plain hoff hquiet htest =>
      obtain ⟨b', v, heq, hdisabled, hv⟩ := h.videoOff a
      cases hoff.symm.trans heq
      refine Shut.quiet ?_ hquiet
      exact hv.hidden rfl rfl hdisabled .inl
  | video format _ _ hquiet =>
      refine Shut.quiet ?_ hquiet
      exact h.hidden rfl rfl rfl .inl
  | streamless _ _ _ hquiet =>
      refine Shut.quiet ?_ hquiet
      exact h.same rfl rfl rfl rfl rfl .inl
  | flushed hflush _ _ hu =>
      subst hu
      simp only [flushesVideo, Bool.and_eq_true] at hflush
      obtain ⟨⟨⟨-, hmode⟩, hprovider⟩, -⟩ := hflush
      exact ⟨h.front, h.block, h.region, fun _ => ⟨hmode, hprovider⟩⟩
  | @closed a₁ u s₁ t hquiet hfront hoff hquiet' =>
      have hu := h.quiet hquiet
      have hend : s₁.haveScreenObject = false ∧ s₁.video.unit.enabled = false := by
        rcases hoff with ⟨hprovider, hoff⟩ | ⟨hprovider, rfl, rfl⟩
        · obtain ⟨b', v, heq, hdisabled, -⟩ := hu.videoOff a
          cases hoff.symm.trans heq
          obtain ⟨-, v, rfl⟩ := surfaceVideoOff_kept hoff
          exact ⟨hfront hprovider, hdisabled⟩
        · have hclosed : ¬ s₁.provider = true := by
            rw [hquiet.provider, hprovider]
            decide
          exact ⟨Bool.eq_false_of_not_eq_true fun hs => hclosed (hu.front hs),
            Bool.eq_false_of_not_eq_true fun hs => hclosed (hu.overlay hs).2⟩
      refine Shut.quiet ⟨?_, fun hself => absurd rfl hself, ?_, ?_⟩ hquiet'
      · intro hs
        exact absurd (hend.1.symm.trans hs) (by decide)
      · rintro ⟨⟩
      · intro hs
        exact absurd (hend.2.symm.trans hs) (by decide)

/-! ### Which calls follow the null pointer -/

/-- The mapping of VRAM follows no null pointer: only an open surface has a block. -/
theorem newMap_ne_none (h : s.Shut) (a : Accel) (env : BackingEnv) : s.newMap a env ≠ none := by
  have hopen : ¬ (s.backing.self ≠ 0 ∧ (!s.provider) = true) := by
    rintro ⟨hself, hclosed⟩
    rw [h.block hself] at hclosed
    cases hclosed
  rw [newMap, if_neg hopen]
  split <;> rintro ⟨⟩

/-- Mapping for the owner does not reach for the accelerator. -/
theorem mapBacking0_ne_none (h : s.Shut) (a : Accel) (env : BackingEnv) :
    s.mapBacking0 a env ≠ none := by
  rw [mapBacking0]
  split
  · rintro ⟨⟩
  · exact fun hnone => h.newMap_ne_none a env (Option.map_eq_none_iff.mp hnone)

/-- Nor does mapping for a context. -/
theorem mapBacking1_ne_none (h : s.Shut) (a : Accel) (env : BackingEnv) :
    s.mapBacking1 a env ≠ none := by
  rw [mapBacking1]
  split
  · rintro ⟨⟩
  · exact fun hnone => h.newMap_ne_none a env (Option.map_eq_none_iff.mp hnone)

/-- Obtaining memory for the owner fails on closed surfaces without client memory only. -/
theorem allocAndMap0_eq_none (h : s.Shut) (a : Accel) (env : BackingEnv) :
    s.allocAndMap0 a env = none ↔ s.provider = false ∧ s.clientBacking.addr = 0 := by
  rw [← h.allocBacking_eq_none a env, allocAndMap0]
  split
  · rename_i halloc
    rw [halloc]
    exact ⟨fun hnone => absurd hnone ((h.allocBacking halloc).mapBacking0_ne_none _ _),
      fun hnone => by cases hnone⟩
  · rfl

/-- So does obtaining memory for a context. -/
theorem allocAndMap1_eq_none (h : s.Shut) (a : Accel) (env : BackingEnv) :
    s.allocAndMap1 a env = none ↔ s.provider = false ∧ s.clientBacking.addr = 0 := by
  rw [← h.allocBacking_eq_none a env, allocAndMap1]
  split
  · rename_i halloc
    rw [halloc]
    exact ⟨fun hnone => absurd hnone ((h.allocBacking halloc).mapBacking1_ne_none _ _),
      fun hnone => by cases hnone⟩
  · rfl

/-- The surface is open once its memory is mapped. -/
theorem allocAndMap1_open (h : s.Shut) (hmem : s.allocAndMap1 a env = some (true, b, t)) :
    t.provider = true := by
  rw [allocAndMap1] at hmem
  split at hmem
  · rename_i s₁ halloc
    obtain ⟨n, m₀, m₁, u, -, ⟨r, w, c, k, rfl⟩, rfl⟩ := mapBacking1_remapped hmem
    obtain ⟨-, backing, rfl⟩ := allocBacking_kept halloc
    exact h.allocBacking_open halloc
  · rename_i hfails
    exact absurd hmem (hfails b t)

/-- `surface_read_lock_options` reaches for a null accelerator exactly where it needs memory. -/
theorem readLock_eq_none (h : s.Shut) {infoOk : Bool} :
    s.readLock a infoOk env = none ↔
      (s.memoryCall (.readLock infoOk env)).isSome = true ∧ s.provider = false ∧
        s.clientBacking.addr = 0 := by
  have hlocked : ({ s with lockedRead := true } : Surface).Shut := h.relocked ⟨_, _, _, _, rfl⟩
  have hclient : s.isClientBackingValid = true ↔ s.clientBacking.addr ≠ 0 := decide_eq_true_iff
  rw [readLock, memoryCall]
  split
  · grind
  split
  · grind
  split
  · grind
  dsimp only
  split
  · rename_i hvalid
    have hvalid' : s.isClientBackingValid = true := hvalid
    grind
  · rename_i hvalid
    have hvalid' : ¬ s.isClientBackingValid = true := hvalid
    rw [Option.map_eq_none_iff, hlocked.allocAndMap0_eq_none a env]
    grind

/-- The part of `surface_write_lock_options` behind its tests does so on closed surfaces. -/
theorem writeLocked_eq_none (h : s.Shut) :
    s.writeLocked a env = none ↔ s.provider = false ∧ s.clientBacking.addr = 0 := by
  rw [writeLocked]
  split
  · simp_all [isClientBackingValid]
  · rw [Option.map_eq_none_iff, h.allocAndMap0_eq_none a env]

/-- `surface_write_lock_options` reaches for a null accelerator exactly where it needs memory. -/
theorem writeLock_eq_none (h : s.Shut) {infoOk : Bool} :
    s.writeLock a infoOk env = none ↔
      (s.memoryCall (.writeLock infoOk env)).isSome = true ∧ s.provider = false ∧
        s.clientBacking.addr = 0 := by
  have hclient : s.isClientBackingValid = true ↔ s.clientBacking.addr ≠ 0 := decide_eq_true_iff
  rw [writeLock, memoryCall]
  split
  · grind
  split
  · grind
  split
  · have hlocked : ({ s with skipWriteLockOnce := false } : Surface).Shut :=
      h.relocked ⟨_, _, _, _, rfl⟩
    rw [hlocked.writeLocked_eq_none]
    grind
  split
  · grind
  · have hlocked : ({ s with lockedWrite := true } : Surface).Shut := h.relocked ⟨_, _, _, _, rfl⟩
    rw [hlocked.writeLocked_eq_none]
    grind

/-- A context's lock reaches for a null accelerator exactly where it needs memory. -/
theorem contextLock_eq_none (h : s.Shut) {argsOk : Bool} {trick : Option (Option ℕ)} :
    s.contextLock a argsOk env trick = none ↔
      (s.memoryCall (.contextLock argsOk env trick)).isSome = true ∧ s.provider = false ∧
        s.clientBacking.addr = 0 := by
  have hlocked : ({ s with lockedContext := true } : Surface).Shut := h.relocked ⟨_, _, _, _, rfl⟩
  have hnone := hlocked.allocAndMap1_eq_none a env
  dsimp only at hnone
  rw [contextLock, memoryCall]
  split
  · grind
  split
  · grind
  split
  · grind
  split
  · grind
  · rename_i hmem
    rw [hmem] at hnone
    grind
  · rename_i b t hmem
    have hopen := hlocked.allocAndMap1_open hmem
    rw [hmem] at hnone
    grind

/-- `copy_framebuffer_region_to_self` does so exactly where it needs memory. -/
theorem copyFramebuffer_eq_none (h : s.Shut) {region : Option IOAccelDeviceRegion} {size : ℕ}
    {copied : IOReturn} :
    s.copyFramebuffer a region size env copied = none ↔
      (s.memoryCall (.copyFramebuffer region size env copied)).isSome = true ∧
        s.provider = false ∧ s.clientBacking.addr = 0 := by
  have hnone := h.allocBacking_eq_none a env
  rw [copyFramebuffer, memoryCall]
  split
  · grind
  split
  · grind
  split
  · grind
  split
  · grind
  split
  · grind
  · grind
  · rename_i b t halloc
    have hopen := h.allocBacking_open halloc
    obtain ⟨-, backing, rfl⟩ := allocBacking_kept halloc
    grind

/-- `copy_surface_region_to_self` does so exactly where it needs memory. -/
theorem copySurface_eq_none (h : s.Shut) {source : Surface}
    {region : Option IOAccelDeviceRegion} {size : ℕ} {copied : IOReturn} :
    s.copySurface a source region size env copied = none ↔
      (s.memoryCall (.copySurface source region size env copied)).isSome = true ∧
        s.provider = false ∧ s.clientBacking.addr = 0 := by
  have hnone := h.allocBacking_eq_none a env
  rw [copySurface, memoryCall]
  split
  · grind
  split
  · grind
  split
  · grind
  split
  · grind
  split
  · grind
  · grind
  · grind

/-- Only an open surface has a valid backing. -/
theorem valid_open (h : s.Shut) (hvalid : s.isBackingValid = true) : s.provider = true := by
  simp only [isBackingValid, Bool.or_eq_true, decide_eq_true_eq] at hvalid
  rcases hvalid with hself | hmd
  · exact h.block hself
  · exact h.region hmd

/-- A backing is only flushed to the screen of an open surface. -/
theorem surfaceFlush_ne_none (h : s.Shut) (a : Accel) (out present : IOReturn) :
    s.surfaceFlush a out present ≠ none := by
  rw [surfaceFlush]
  split
  · rintro ⟨⟩
  split
  · rintro ⟨⟩
  rename_i hready
  have hprovider : s.provider = true := h.valid_open (by simp_all)
  rw [hprovider]
  split
  · rintro ⟨⟩
  split
  · rename_i hclosed
    rw [Bool.and_eq_true] at hclosed
    cases hclosed.2
  split
  · rintro ⟨⟩
  split
  · rename_i hclosed
    cases hclosed
  split <;> rintro ⟨⟩

/-- `surface_flush_video` never reaches for a null accelerator. -/
theorem surfaceFlushVideo_ne_none (h : s.Shut) (a : Accel) : s.surfaceFlushVideo a ≠ none := by
  rw [surfaceFlushVideo]
  split
  · rintro ⟨⟩
  split
  · rintro ⟨⟩
  rename_i hready
  have hprovider : s.provider = true := h.valid_open (by simp_all)
  rw [hprovider]
  split
  · rintro ⟨⟩
  split
  · rename_i hclosed
    cases hclosed
  split
  · rintro ⟨⟩
  dsimp only
  split <;> rintro ⟨⟩

/-- A new window is given to the primary screen of an open surface only. -/
theorem setIdMode_ne_none (h : s.Shut) (a : Accel) (wID : ℕ) (mode : SurfaceMode)
    (screen : IOReturn) : s.setIdMode a wID mode screen ≠ none := by
  rw [setIdMode]
  split
  · split
    · rintro ⟨⟩
    split
    · rename_i hscreen
      rw [h.front hscreen, if_neg (by decide)]
      split <;> rintro ⟨⟩
    · rintro ⟨⟩
  · rintro ⟨⟩

/-- `set_shape_backing_length_ext` never does. -/
theorem setShape_ne_none (h : s.Shut) (a : Accel) (args : ShapeArgs) :
    s.setShape a args ≠ none := by
  rw [setShape]
  split
  · rintro ⟨⟩
  rename_i rgn
  split
  · rintro ⟨⟩
  split
  · rintro ⟨⟩
  have hu : Quiet s { s.clearLastRegion with clientBacking := .zero } :=
    (clearLastRegion_quiet s).trans ⟨rfl, rfl, rfl, rfl, rfl, .inl⟩
  dsimp only
  split
  · rintro ⟨⟩
  split
  · rintro ⟨⟩
  split
  · rintro ⟨⟩
  · rename_i client _
    obtain ⟨g, -, hmark⟩ := recordClientBacking_quiet
      { s.clearLastRegion with clientBacking := .zero } client
    have hv := ((h.quiet hu).withMark g).quiet hmark
    split
    · rintro ⟨⟩
    · rw [Ne, Option.map_eq_none_iff]
      refine videoReshape_ne_none (hv.quiet ?_) a
      split
      · exact ⟨rfl, rfl, rfl, rfl, rfl, .inl⟩
      · exact ⟨rfl, rfl, rfl, rfl, rfl, .inl⟩

/-- `clientClose` never does, also when it comes twice. -/
theorem clientClose_ne_none (h : s.Shut) (a : Accel) : s.clientClose a ≠ none := by
  rw [clientClose]
  dsimp only
  rw [Ne, Option.map_eq_none_iff]
  split
  · obtain ⟨b, t, heq, -⟩ := (h.quiet (cleanup3D_quiet s)).videoOff a
    rw [heq]
    rintro ⟨⟩
  · rintro ⟨⟩

/-- An open surface can be given a format. -/
theorem contextSetSurface_ne_none (h : s.Shut) (hprovider : s.provider = true) (a : Accel)
    (vmware : ℕ) (apple : PixelFormat) (env : Start3DEnv) :
    s.contextSetSurface a vmware apple env ≠ none := by
  rw [contextSetSurface]
  split
  · obtain ⟨b, t, heq, -⟩ := h.videoOff a
    obtain ⟨-, v, rfl⟩ := surfaceVideoOff_kept heq
    rw [heq]
    dsimp only
    rw [Ne, Option.map_eq_none_iff]
    refine restart_ne_none ?_ b env
    split
    · exact hprovider
    · exact hprovider
  · split <;> rintro ⟨⟩

/-- **A call** follows the null pointer just when the surface is closed and the call needs
memory that is not the client's own. -/
theorem apply_eq_none (h : s.Shut) (op : SurfaceOp)
    (hopen : ∀ vmware apple env, op = .contextSetSurface vmware apple env → s.provider = true) :
    s.apply a op = none ↔ (s.memoryCall op).isSome = true ∧ s.provider = false ∧
      s.clientBacking.addr = 0 := by
  have hother : s.apply a op ≠ none → s.memoryCall op = none →
      (s.apply a op = none ↔ (s.memoryCall op).isSome = true ∧ s.provider = false ∧
        s.clientBacking.addr = 0) := by
    intro hsome hcall
    rw [hcall]
    exact ⟨fun hnone => absurd hnone hsome, fun hc => by cases hc.1⟩
  cases op with
  | setIdMode wID mode screen => exact hother (h.setIdMode_ne_none a wID mode screen) rfl
  | setScale scaling => exact hother (by rintro ⟨⟩) rfl
  | setShape args => exact hother (h.setShape_ne_none a args) rfl
  | readLock infoOk env => exact h.readLock_eq_none
  | readUnlock => exact hother (by rintro ⟨⟩) rfl
  | writeLock infoOk env => exact h.writeLock_eq_none
  | writeUnlock => exact hother (by rintro ⟨⟩) rfl
  | flush out present => exact hother (h.surfaceFlush_ne_none a out present) rfl
  | close => exact hother (h.clientClose_ne_none a) rfl
  | contextSetSurface vmware apple env =>
      exact hother (h.contextSetSurface_ne_none (hopen _ _ _ rfl) a vmware apple env) rfl
  | contextScale fixedSource width height => exact hother (by rintro ⟨⟩) rfl
  | contextLock argsOk env trick => exact h.contextLock_eq_none
  | contextUnlock => exact hother (by rintro ⟨⟩) rfl
  | copyFramebuffer region size env copied => exact h.copyFramebuffer_eq_none
  | copySurface source region size env copied => exact h.copySurface_eq_none
  | flushVideo => exact hother (h.surfaceFlushVideo_ne_none a) rfl

end Shut

end Surface

/-! ### Runs -/

namespace World

/-- The action needs memory for a closed surface that has no client memory. -/
def reachesClosed (w : World) (act : Action) : Bool :=
  match w.called act with
  | some (i, op) =>
      ((w.surfaces i).memoryCall op).isSome && !(w.surfaces i).provider &&
        (w.surfaces i).clientBacking.addr == 0
  | none => false

/-- A format is given to open surfaces with an id only, as others are not found, and it is one
of two video formats or none. -/
theorem called_setSurface {w : World} {act : Action} {i vmware : ℕ} {apple : PixelFormat}
    {env : Surface.Start3DEnv}
    (h : w.called act = some (i, .contextSetSurface vmware apple env)) :
    (w.surfaces i).provider = true ∧ (w.surfaces i).haveID = true ∧
      (vmware = 0 ∨ vmware = Surface.fourccUyvy ∨ vmware = Surface.fourccYuy2) := by
  cases act with
  | start => cases h
  | write => cases h
  | client j op =>
      rw [called] at h
      split at h
      · rename_i hmay
        cases h
        rw [Bool.and_eq_true] at hmay
        cases hmay.2
      · cases h
  | context c op =>
      change w.contextCalled c op = _ at h
      cases op with
      | setSurface structOut surfaceId hasId uyvy yuy2 bgra found env' =>
          simp only [contextCalled] at h
          split at h
          · obtain ⟨j, -, h⟩ := Option.bind_eq_some_iff.mp h
            split at h
            · rename_i hanswers
              cases h
              rw [answers, Bool.and_eq_true, Bool.and_eq_true] at hanswers
              refine ⟨hanswers.1.1, hanswers.1.2, ?_⟩
              unfold setSurfaceFormats
              cases uyvy
              · cases yuy2
                · cases bgra <;> exact .inl rfl
                · exact .inr (.inr rfl)
              · exact .inr (.inl rfl)
            · cases h
          · cases h
      | swapSurface =>
          obtain ⟨j, -, heq⟩ := Option.map_eq_some_iff.mp h
          cases heq
      | scaleSurface fixedSource width height =>
          obtain ⟨j, -, heq⟩ := Option.map_eq_some_iff.mp h
          cases heq
      | lockMemory argsOk env' trick =>
          simp only [contextCalled] at h
          split at h
          · obtain ⟨j, -, heq⟩ := Option.map_eq_some_iff.mp h
            cases heq
          · cases h
      | unlockMemory =>
          obtain ⟨j, -, heq⟩ := Option.map_eq_some_iff.mp h
          cases heq
      | copyRegion sourceId found region regionSize env' copied =>
          simp only [contextCalled] at h
          split at h
          · cases h
          split at h
          · obtain ⟨j, -, h⟩ := Option.bind_eq_some_iff.mp h
            split at h
            · obtain ⟨k, -, heq⟩ := Option.map_eq_some_iff.mp h
              cases heq
            · cases h
          · obtain ⟨j, -, heq⟩ := Option.map_eq_some_iff.mp h
            cases heq
      | close => cases h

/-- A call crashes the system exactly if the surface's own function does. -/
theorem call_eq_crashed {w : World} {i : ℕ} {op : SurfaceOp} :
    w.call i op = .crashed ↔ (w.surfaces i).apply w.accel op = none := by
  rw [call]
  split
  · rename_i happly
    exact ⟨fun _ => happly, fun _ => rfl⟩
  · rename_i o happly
    rw [happly]
    exact ⟨fun h => (by cases h), fun h => (by cases h)⟩

/-- An action crashes just when the call that it comes to does. -/
theorem result_eq_crashed {w : World} {act : Action} :
    w.result act = .crashed ↔
      ∃ i op, w.called act = some (i, op) ∧ (w.surfaces i).apply w.accel op = none := by
  cases act with
  | start i screenInfo env =>
      refine ⟨fun h => ?_, by rintro ⟨j, op, h, -⟩; cases h⟩
      rw [result] at h
      dsimp only at h
      split at h
      · cases h
      split at h
      · cases h
      split at h
      · rename_i hstart
        exact absurd (Option.map_eq_none_iff.mp hstart) (Surface.start3D_ne_none rfl _ _)
      · cases h
  | client i op =>
      rw [result, called]
      split
      · rw [call_eq_crashed]
        refine ⟨fun h => ⟨i, op, rfl, h⟩, ?_⟩
        rintro ⟨j, sop, ⟨⟩, h⟩
        exact h
      · refine ⟨fun h => (by cases h), ?_⟩
        rintro ⟨j, sop, ⟨⟩, -⟩
  | context c op =>
      change w.contextCall c op = .crashed ↔ ∃ i sop, w.contextCalled c op = some (i, sop) ∧ _
      rcases w.contextCall_cases c op with ⟨i, sop, x, hcalled, heq⟩ |
        ⟨hcalled, heq | ⟨x, ret, heq⟩⟩
      · rw [heq, call_eq_crashed, hcalled]
        refine ⟨fun h => ⟨i, sop, rfl, h⟩, ?_⟩
        rintro ⟨j, sop', ⟨⟩, h⟩
        exact h
      · rw [heq, hcalled]
        refine ⟨fun h => (by cases h), ?_⟩
        rintro ⟨j, sop, ⟨⟩, -⟩
      · rw [heq, hcalled]
        refine ⟨fun h => (by cases h), ?_⟩
        rintro ⟨j, sop, ⟨⟩, -⟩
  | write ptr k v =>
      refine ⟨fun h => ?_, by rintro ⟨j, op, h, -⟩; cases h⟩
      rw [result] at h
      dsimp only at h
      split at h <;> cases h

/-- Closed surfaces have no memory and no overlay. -/
def ClosedShut (w : World) : Prop := ∀ i, (w.surfaces i).Shut

/-- Every step leaves closed surfaces with nothing. -/
theorem ClosedShut.step {w w' : World} {act : Action} (h : w.ClosedShut)
    (hstep : w.step act = some w') : w'.ClosedShut := by
  refine local_rule hstep h (fun _ hs happly => hs.change (Surface.apply_change happly)) ?_
  intro i screenInfo env o hs hstart
  obtain ⟨-, hquiet⟩ := Surface.start_tested hstart
  refine Surface.Shut.quiet ?_ hquiet
  exact ⟨fun _ => rfl, fun _ => rfl, fun _ => rfl, fun hon => ⟨(hs.overlay hon).1, rfl⟩⟩

/-- At the start all surfaces are closed and have nothing. -/
theorem ClosedShut.start (a : Accel) : (World.start a).ClosedShut := by
  refine fun _ => ⟨?_, fun h => absurd rfl h, ?_, ?_⟩
  · rintro ⟨⟩
  · rintro ⟨⟩
  · rintro ⟨⟩

end World

/-- **Closed surfaces**: in every state of every run an action follows the null pointer to the
accelerator if and only if it needs memory for a closed surface that has no client memory. -/
theorem closed_surface_inert {a : Accel} {as : List Action} {w : World}
    (h : Run World.step Always (World.start a) as w) (act : Action) :
    w.result act ≠ .crashed ↔ w.reachesClosed act = false := by
  have hshut : w.ClosedShut :=
    h.invariant (I := World.ClosedShut) (fun w act w' hw _ hstep => hw.step hstep)
      (World.ClosedShut.start a)
  rw [Ne, World.result_eq_crashed, World.reachesClosed]
  split
  · rename_i i op hcalled
    have hnone := (hshut i).apply_eq_none (a := w.accel) op (fun vmware apple env hop =>
      (World.called_setSurface (hop ▸ hcalled)).1)
    have hcrash : (∃ j sop, w.called act = some (j, sop) ∧
        (w.surfaces j).apply w.accel sop = none) ↔ (w.surfaces i).apply w.accel op = none := by
      rw [hcalled]
      refine ⟨?_, fun happly => ⟨i, op, rfl, happly⟩⟩
      rintro ⟨j, sop, ⟨⟩, happly⟩
      exact happly
    rw [hcrash, hnone]
    grind
  · rename_i hcalled
    rw [hcalled]
    refine ⟨fun _ => rfl, fun _ => ?_⟩
    rintro ⟨i, op, ⟨⟩, -⟩

/-- A surface of 16 by 16 pixels that a context draws to, closed by its client. -/
def closedSession : List Action :=
  [.start 0 ⟨0x1000, 16, 16, 0x100000, 64⟩ ⟨true, true, false, .success⟩,
    .client 0 (.setIdMode 7 ⟨false, true, .depth8888⟩ .success),
    .client 0 (.setScale (some (⟨0, 0, 16, 16⟩, 16, 16))),
    .context 0 (.setSurface true 7 true false false true (some 0) ⟨true, true, false, .success⟩),
    .client 0 .close]

/-- The context that swaps the closed surface follows no null pointer. -/
theorem closed_surface_inert_session : ∃ w,
    Run World.step Always smallWorld closedSession w ∧ (w.surfaces 0).provider = false ∧
      w.called (.context 0 .swapSurface) = some (0, .flushVideo) ∧
      w.result (.context 0 .swapSurface) ≠ .crashed := by
  have heval : (closedSession.foldlM World.step smallWorld).map (fun w =>
      ((w.surfaces 0).provider, w.target 0)) = some (false, some 0) := by decide +kernel
  obtain ⟨w, hfold, hend⟩ := Option.map_eq_some_iff.mp heval
  obtain ⟨hprovider, htarget⟩ := Prod.mk.inj hend
  have hcalled : w.called (.context 0 .swapSurface) = some (0, .flushVideo) := by
    change (w.target 0).map (·, SurfaceOp.flushVideo) = _
    rw [htarget]
    rfl
  refine ⟨w, run_of_foldlM hfold, hprovider, hcalled, ?_⟩
  refine (closed_surface_inert (run_of_foldlM hfold) _).mpr ?_
  rw [World.reachesClosed, hcalled]
  rfl

/-- The context that locks the memory of the closed surface follows the null pointer. -/
theorem closed_surface_reached : ∃ w,
    Run World.step Always smallWorld closedSession w ∧ (w.surfaces 0).provider = false ∧
      w.result (.context 0 (.lockMemory true willing none)) = .crashed := by
  have heval : (closedSession.foldlM World.step smallWorld).map (fun w =>
      ((w.surfaces 0).provider, match w.result (.context 0 (.lockMemory true willing none)) with
        | .crashed => true
        | _ => false)) = some (false, true) := by decide +kernel
  obtain ⟨w, hfold, hend⟩ := Option.map_eq_some_iff.mp heval
  obtain ⟨hprovider, hcrash⟩ := Prod.mk.inj hend
  refine ⟨w, run_of_foldlM hfold, hprovider, ?_⟩
  split at hcrash
  · rename_i heq
    exact heq
  · cases hcrash

end DockerMacos
