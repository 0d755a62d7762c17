import DockerMacos.ClosedSurfaces

/-!
# The Maps of a Surface

The backing of a surface is mapped at most twice, for the surface's own client and for a 2D
context. The maps are made by the locks and live until the backing is exchanged; only the
context's own is dropped by its unlock, and only the client's gives way to the black buffer of
a video surface. This module follows the maps through every call.

## What a call does with memory

A call that needs memory comes to `allocBacking`, which keeps the backing or exchanges it, and
then maps what it has: `Mappings` says so in one statement, with the maps described by
`Mapping`. The other calls either only serve (`Served`: the backing, the overlay and the lock
bits may change, but not how the surface looks) or change the way to the screen (`Refronted`).

## The black buffer

The lock of a 2D context on a surface in video mode may put a buffer of black pixels in the
place of the first map (`setup_trick_buffer`; `tricks` says when). So a first map is of the
backing or of such a buffer; a second map is always of the backing.

## Main definitions

* `Mapped`: the invariant of the maps.

## Main results

* `memory_mapping`: what a call that needs memory does to the maps.
* `Mapped.apply`: a call keeps the maps on the backing.
* `apply_served`: a call that only serves changes the backing, the overlay and the lock bits.
-/

namespace DockerMacos

/-- The call only serves: it neither changes how the surface looks nor closes it. -/
def SurfaceOp.serves : SurfaceOp → Bool
  | .setIdMode .. => false
  | .setScale .. => false
  | .setShape .. => false
  | .close => false
  | .contextSetSurface .. => false
  | .contextScale .. => false
  | _ => true

namespace Surface

variable {a b : Accel} {s t : Surface} {o : Outcome} {env : BackingEnv}

/-! ### Maps -/

/-- The two maps of the backing. -/
def maps (s : Surface) : Option MemoryMap × Option MemoryMap := (s.backing.map0, s.backing.map1)

/-- The backing with other maps. -/
def withMaps (s : Surface) (m₀ m₁ : Option MemoryMap) : Surface :=
  { s with backing := { s.backing with map0 := m₀, map1 := m₁ } }

/-- **The invariant** of the maps: they are of the backing, and the first may be of the black
buffer in its place. -/
structure Mapped (s : Surface) : Prop where
  valid : s.backing.map0.isSome = true → s.isBackingValid = true
  first : ∀ m, s.backing.map0 = some m →
    s.backingMemory = some m.memory ∨ ∃ k, m.memory = .trick k
  second : ∀ m, s.backing.map1 = some m → s.backingMemory = some m.memory

/-- A backing is valid exactly if it has memory. -/
theorem isBackingValid_iff : s.isBackingValid = true ↔ s.backingMemory.isSome = true := by
  rw [isBackingValid, backingMemory]
  split
  · rename_i hself
    simp only [hself, ne_eq, not_false_eq_true, decide_true, Bool.true_or, Option.isSome_some]
  · rename_i hself
    rw [not_not] at hself
    simp only [hself, ne_eq, not_true_eq_false, decide_false, Bool.false_or, Option.isSome_map]

/-- There is no backing exactly if it has no memory. -/
theorem classify_none_iff : s.classifyBacking = .none ↔ s.backingMemory = none := by
  rw [classifyBacking, backingMemory]
  split
  · refine ⟨fun h => (by cases h), fun h => (by cases h)⟩
  · split
    · rename_i hmd
      refine ⟨fun h => ?_, fun h => ?_⟩
      · split at h <;> cases h
      · rw [Option.map_eq_none_iff] at h
        rw [h] at hmd
        cases hmd
    · rename_i hmd
      refine ⟨fun _ => ?_, fun _ => rfl⟩
      rw [Option.map_eq_none_iff]
      simpa only [Option.isSome_iff_ne_none, ne_eq, not_not] using hmd

/-- Without a backing there are no maps. -/
theorem Mapped.unmapped (h : s.Mapped) (hclass : s.classifyBacking = .none) :
    s.maps = (none, none) := by
  have hnone := classify_none_iff.mp hclass
  have hfirst : s.backing.map0 = none := by
    by_contra hsome
    have hvalid := isBackingValid_iff.mp (h.valid (Option.isSome_iff_ne_none.mpr hsome))
    rw [hnone] at hvalid
    cases hvalid
  have hsecond : s.backing.map1 = none := by
    cases hsome : s.backing.map1 with
    | none => rfl
    | some m =>
        have hmemory := h.second m hsome
        rw [hnone] at hmemory
        cases hmemory
  rw [maps, hfirst, hsecond]

/-- A surface without maps has none of anything else. -/
theorem Mapped.of_none (h : s.maps = (none, none)) : s.Mapped := by
  obtain ⟨hfirst, hsecond⟩ := Prod.mk.inj h
  refine ⟨fun hsome => ?_, fun m hm => ?_, fun m hm => ?_⟩
  · rw [hfirst] at hsome
    cases hsome
  · rw [hfirst] at hm
    cases hm
  · rw [hsecond] at hm
    cases hm

/-- The invariant depends on the maps and the memory of the backing only. -/
theorem Mapped.congr (h : s.Mapped) (hmaps : t.maps = s.maps)
    (hself : t.backing.self = s.backing.self) (hmd : t.backing.vtb.md = s.backing.vtb.md) :
    t.Mapped := by
  obtain ⟨hfirst, hsecond⟩ := Prod.mk.inj hmaps
  have hmemory : t.backingMemory = s.backingMemory := by
    rw [backingMemory, backingMemory, hself, hmd]
  refine ⟨?_, ?_, ?_⟩
  · rw [hfirst, isBackingValid_iff, hmemory, ← isBackingValid_iff]
    exact h.valid
  · rw [hfirst, hmemory]
    exact h.first
  · rw [hsecond, hmemory]
    exact h.second

/-- Lock bits have nothing to do with the maps. -/
theorem Mapped.relocked (h : s.Mapped) (hlock : s.Relocked t) : t.Mapped := by
  obtain ⟨r, w, c, k, rfl⟩ := hlock
  exact h.congr rfl rfl rfl

/-! ### Obtaining memory -/

/-- Preparing a memory descriptor makes no map. -/
theorem prepareBacking_maps (s : Surface) (a : Accel) (env : BackingEnv) (md : MemoryDescriptor)
    (gartPtr : ℕ) : (s.prepareBacking a env md gartPtr).2.2.maps = s.maps := by
  rw [prepareBacking]
  split <;> rfl

/-- Wrapping the memory of the client makes no map. -/
theorem wrapClient_maps (s : Surface) (a : Accel) (env : BackingEnv) :
    (s.wrapClient a env).2.2.maps = s.maps := by
  rw [wrapClient]
  dsimp only
  split
  · exact prepareBacking_maps _ _ _ _ _
  · rfl

/-- The region for a block of VRAM makes no map. -/
theorem allocGMRBacking_maps (s : Surface) (a : Accel) (env : BackingEnv) :
    (s.allocGMRBacking a env).2.2.maps = s.maps := by
  rw [allocGMRBacking]
  split
  · exact prepareBacking_maps _ _ _ _ _
  · rfl

/-- A new block comes without new maps. -/
theorem allocNew_maps {ok : Bool} (h : s.allocNew a env = some (ok, b, t)) : t.maps = s.maps := by
  rw [allocNew] at h
  split at h
  · cases h
  dsimp only at h
  split at h
  · rw [Option.some.injEq] at h
    have hmaps := allocGMRBacking_maps { s with backing := { s.backing with
      size := s.scale.byteSize
      self := (a.vramRealloc s.backing.self s.scale.byteSize env.vramFails).2 } }
      (a.vramRealloc s.backing.self s.scale.byteSize env.vramFails).1 env
    rw [h] at hmaps
    exact hmaps
  · cases h
    rfl

/-- When `allocBacking` has something to do, no map is left. -/
theorem allocBacking_unsettled (h : s.Mapped) (hs : ¬ s.settled = true) {ok : Bool}
    (halloc : s.allocBacking a env = some (ok, b, t)) : t.maps = (none, none) := by
  rw [settled] at hs
  rw [allocBacking] at halloc
  split at halloc
  · rename_i hclient
    rw [if_pos hclient] at hs
    have hmaps : (s.wrapClientBacking a env).2.2.maps = (none, none) := by
      rw [wrapClientBacking]
      split
      · exact wrapClient_maps _ _ _
      · rename_i hclass
        rw [hclass] at hs
        have hmark : ¬ s.backing.vtb.gartPtr = 1 := by simpa using hs
        rw [if_neg hmark]
        exact wrapClient_maps _ _ _
      · rename_i hclass
        exact (wrapClient_maps _ _ _).trans (h.unmapped hclass)
    rw [Option.some.injEq] at halloc
    rw [halloc] at hmaps
    exact hmaps
  · rename_i hclient
    rw [if_neg hclient] at hs
    split at halloc
    · rename_i hclass
      rw [hclass] at hs
      have hgrown : ¬ (!s.hasSourceGrown) = true := by simpa using hs
      rw [if_neg hgrown] at halloc
      exact allocNew_maps halloc
    · exact allocNew_maps halloc
    · rename_i hclass
      exact (allocNew_maps halloc).trans (h.unmapped hclass)

/-- After `allocBacking` the maps are of the backing. -/
theorem Mapped.allocBacking (h : s.Mapped) {ok : Bool}
    (halloc : s.allocBacking a env = some (ok, b, t)) : t.Mapped := by
  by_cases hs : s.settled = true
  · rw [allocBacking_settled hs] at halloc
    cases halloc
    exact h
  · exact .of_none (allocBacking_unsettled h hs halloc)

/-! ### Mapping memory -/

/-- What a call does to the maps of a backing that is there: it makes missing maps of it, and
the black buffer takes the place of the first when the call `tricks`. -/
structure Mapping (tricks : Bool) (s t : Surface) : Prop where
  rest : ∃ m₀ m₁, Relocked (s.withMaps m₀ m₁) t
  first : t.backing.map0 = s.backing.map0 ∨
    s.backing.map0 = none ∧ (∀ m, t.backing.map0 = some m → s.backingMemory = some m.memory) ∨
    tricks = true ∧ s.isBackingValid = true ∧
      ∀ m, t.backing.map0 = some m → ∃ k, m.memory = .trick k
  second : t.backing.map1 = s.backing.map1 ∨
    s.backing.map1 = none ∧ ∀ m, t.backing.map1 = some m → s.backingMemory = some m.memory

/-- The call puts the black buffer in the place of the first map. -/
def tricks (s : Surface) (a : Accel) : SurfaceOp → Bool
  | .contextLock _ env (some _) =>
      s.videoMode && (a.haveScreenObject || !a.haveSVGA3D) &&
        (s.backing.map1.isSome || env.map.isSome)
  | _ => false

/-- No call makes no maps. -/
theorem Mapping.refl (tricks : Bool) (s : Surface) : Mapping tricks s s :=
  ⟨⟨_, _, .refl s⟩, .inl rfl, .inl rfl⟩

/-- Lock bits may change after the maps are made. -/
theorem Mapping.relocked {tricks : Bool} {u : Surface} (h : Mapping tricks s t)
    (hlock : Relocked t u) : Mapping tricks s u := by
  obtain ⟨m₀, m₁, r, w, c, k, rfl⟩ := h.rest
  obtain ⟨r', w', c', k', rfl⟩ := hlock
  exact ⟨⟨m₀, m₁, r', w', c', k', rfl⟩, h.first, h.second⟩

/-- A call that puts nothing in the place of a map does what one that may does. -/
theorem Mapping.mono {tricks : Bool} (h : Mapping false s t) : Mapping tricks s t := by
  refine ⟨h.rest, ?_, h.second⟩
  rcases h.first with hkept | hmade | ⟨hfalse, -⟩
  · exact .inl hkept
  · exact .inr (.inl hmade)
  · cases hfalse

/-- A new map is of the backing, and there is one only if the system gives it. -/
theorem newMap_memory {m : Option MemoryMap} (h : s.newMap a env = some (m, b)) :
    (∀ k, m = some k → s.backingMemory = some k.memory) ∧
      (m.isSome = true → env.map.isSome = true) := by
  rw [newMap] at h
  split at h
  · cases h
  split at h
  · rename_i memory address hmemory hmap
    cases h
    refine ⟨?_, fun _ => by rw [hmap]; rfl⟩
    rintro k ⟨⟩
    exact hmemory
  · cases h
    refine ⟨?_, ?_⟩
    · rintro k ⟨⟩
    · rintro ⟨⟩

/-- `mapBacking` for the owner makes the first map. -/
theorem mapBacking0_mapping {ok : Bool} (h : s.mapBacking0 a env = some (ok, b, t)) :
    Mapping false s t := by
  rw [mapBacking0] at h
  split at h
  · cases h
    exact .refl _ _
  · rename_i hnone
    obtain ⟨⟨m, a₁⟩, hmap, heq⟩ := Option.map_eq_some_iff.mp h
    cases heq
    refine ⟨⟨m, _, .refl _⟩, .inr (.inl ⟨?_, (newMap_memory hmap).1⟩), .inl rfl⟩
    simpa only [Option.isSome_iff_ne_none, ne_eq, not_not] using hnone

/-- `mapBacking` for a context makes the second map, and needs the system to give it. -/
theorem mapBacking1_mapping {ok : Bool} (h : s.mapBacking1 a env = some (ok, b, t)) :
    Mapping false s t ∧
      (ok = true → (s.backing.map1.isSome || env.map.isSome) = true) := by
  rw [mapBacking1] at h
  split at h
  · rename_i hsome
    cases h
    exact ⟨.refl _ _, fun _ => by rw [hsome]; rfl⟩
  · rename_i hnone
    obtain ⟨⟨m, a₁⟩, hmap, heq⟩ := Option.map_eq_some_iff.mp h
    cases heq
    refine ⟨⟨⟨_, m, .refl _⟩, .inl rfl, .inr ⟨?_, (newMap_memory hmap).1⟩⟩, fun hok => ?_⟩
    · simpa only [Option.isSome_iff_ne_none, ne_eq, not_not] using hnone
    · rw [(newMap_memory hmap).2 hok, Bool.or_true]

/-- What `allocBacking` has obtained is mapped for the owner. -/
theorem allocAndMap0_mapping {ok : Bool} (h : s.allocAndMap0 a env = some (ok, b, t)) :
    ∃ ok' a₁ s₁, s.allocBacking a env = some (ok', a₁, s₁) ∧ Mapping false s₁ t := by
  rw [allocAndMap0] at h
  split at h
  · rename_i a₁ s₁ halloc
    exact ⟨true, a₁, s₁, halloc, mapBacking0_mapping h⟩
  · exact ⟨ok, b, t, h, .refl _ _⟩

/-- The black buffer is set up for a backing that is there. -/
theorem setupTrickBuffer_mapping (s : Surface) (a : Accel) (trick : Option (Option ℕ))
    (tricks : Bool) (htricks : trick ≠ none → tricks = true) :
    Mapping tricks s (s.setupTrickBuffer a trick).2 := by
  unfold setupTrickBuffer
  split
  · exact .refl _ _
  · rename_i hvalid
    split
    · exact .refl _ _
    · rename_i map
      refine ⟨⟨_, _, .refl _⟩, .inr (.inr ⟨htricks (by simp), ?_, ?_⟩), .inl rfl⟩
      · simpa only [Bool.not_eq_true', Bool.not_eq_false] using hvalid
      · intro m hm
        obtain ⟨address, -, rfl⟩ := Option.map_eq_some_iff.mp hm
        exact ⟨_, rfl⟩

/-- Two calls make the maps of both. -/
theorem Mapping.trans {tricks : Bool} {u : Surface} (h : Mapping false s t)
    (h' : Mapping tricks t u) : Mapping tricks s u := by
  obtain ⟨m₀, m₁, r, w, c, k, rfl⟩ := h.rest
  obtain ⟨m₀', m₁', r', w', c', k', rfl⟩ := h'.rest
  have hfirst := h.first
  have hsecond := h.second
  have hfirst' := h'.first
  have hsecond' := h'.second
  refine ⟨⟨m₀', m₁', r', w', c', k', rfl⟩, ?_, ?_⟩
  · rcases hfirst' with hkept | ⟨hnone, hmade⟩ | htricked
    · rcases hfirst with hk | ⟨hn, hm⟩ | ⟨hfalse, -⟩
      · exact .inl (hkept.trans hk)
      · refine .inr (.inl ⟨hn, fun m hm' => hm m (hkept ▸ hm')⟩)
      · cases hfalse
    · rcases hfirst with hk | ⟨hn, -⟩ | ⟨hfalse, -⟩
      · exact .inr (.inl ⟨hk ▸ hnone, hmade⟩)
      · exact .inr (.inl ⟨hn, hmade⟩)
      · cases hfalse
    · exact .inr (.inr htricked)
  · rcases hsecond' with hkept | ⟨hnone, hmade⟩
    · rcases hsecond with hk | ⟨hn, hm⟩
      · exact .inl (hkept.trans hk)
      · exact .inr ⟨hn, fun m hm' => hm m (hkept ▸ hm')⟩
    · rcases hsecond with hk | ⟨hn, -⟩
      · exact .inr ⟨hk ▸ hnone, hmade⟩
      · exact .inr ⟨hn, hmade⟩

/-! ### The calls that need memory -/

/-- A memory call obtains memory and maps it. -/
def Mappings (a : Accel) (s : Surface) (op : SurfaceOp) (env : BackingEnv) (t : Surface) : Prop :=
  ∃ u ok a₁ s₁, Relocked s u ∧ u.allocBacking a env = some (ok, a₁, s₁) ∧
    Mapping (s₁.tricks a₁ op) s₁ t

/-- `surface_read_lock_options` obtains memory and maps it. -/
theorem readLock_mappings {infoOk : Bool}
    (hcall : s.memoryCall (.readLock infoOk env) = some env)
    (h : s.readLock a infoOk env = some o) :
    Mappings a s (.readLock infoOk env) env o.surface := by
  rw [memoryCall] at hcall
  rw [readLock] at h
  split at h
  · grind
  split at h
  · grind
  split at h
  · grind
  dsimp only at h
  split at h
  · rename_i hclient
    have hclient' : s.isClientBackingValid = true := hclient
    grind
  · obtain ⟨⟨ok, b, t⟩, hmem, heq⟩ := Option.map_eq_some_iff.mp h
    obtain ⟨ok', a₁, s₁, halloc, hmap⟩ := allocAndMap0_mapping hmem
    refine ⟨_, ok', a₁, s₁, ⟨_, _, _, _, rfl⟩, halloc, ?_⟩
    cases ok with
    | false =>
        cases heq
        exact hmap.relocked ⟨_, _, _, _, rfl⟩
    | true =>
        cases heq
        exact hmap

/-- The part of `surface_write_lock_options` behind its tests obtains memory and maps it. -/
theorem writeLocked_mappings {infoOk : Bool} {u : Surface} (hlock : Relocked s u)
    (hclient : s.isClientBackingValid = false) (h : u.writeLocked a env = some o) :
    Mappings a s (.writeLock infoOk env) env o.surface := by
  have hclient' : u.isClientBackingValid = false := by
    obtain ⟨r, w, c, k, rfl⟩ := hlock
    exact hclient
  rw [writeLocked, if_neg (by rw [hclient']; decide)] at h
  obtain ⟨⟨ok, b, t⟩, hmem, heq⟩ := Option.map_eq_some_iff.mp h
  obtain ⟨ok', a₁, s₁, halloc, hmap⟩ := allocAndMap0_mapping hmem
  refine ⟨u, ok', a₁, s₁, hlock, halloc, ?_⟩
  cases ok with
  | false =>
      cases heq
      exact hmap.relocked ⟨_, _, _, _, rfl⟩
  | true =>
      cases heq
      exact hmap

/-- `surface_write_lock_options` obtains memory and maps it. -/
theorem writeLock_mappings {infoOk : Bool}
    (hcall : s.memoryCall (.writeLock infoOk env) = some env)
    (h : s.writeLock a infoOk env = some o) :
    Mappings a s (.writeLock infoOk env) env o.surface := by
  rw [memoryCall] at hcall
  have hclient : s.isClientBackingValid = false := by grind
  rw [writeLock] at h
  split at h
  · grind
  split at h
  · grind
  split at h
  · exact writeLocked_mappings ⟨_, _, _, _, rfl⟩ hclient h
  split at h
  · grind
  · exact writeLocked_mappings ⟨_, _, _, _, rfl⟩ hclient h

/-- A context's lock of the memory obtains memory and maps it. -/
theorem contextLock_mappings {argsOk : Bool} {trick : Option (Option ℕ)}
    (hcall : s.memoryCall (.contextLock argsOk env trick) = some env)
    (h : s.contextLock a argsOk env trick = some o) :
    Mappings a s (.contextLock argsOk env trick) env o.surface := by
  rw [memoryCall] at hcall
  rw [contextLock] at h
  split at h
  · grind
  split at h
  · grind
  split at h
  · grind
  rw [allocAndMap1] at h
  cases halloc : ({ s with lockedContext := true } : Surface).allocBacking a env with
  | none =>
      rw [halloc] at h
      cases h
  | some r =>
      obtain ⟨ok, a₁, s₁⟩ := r
      refine ⟨_, ok, a₁, s₁, ⟨_, _, _, _, rfl⟩, halloc, ?_⟩
      rw [halloc] at h
      cases ok with
      | false =>
          cases h
          exact (Mapping.refl _ s₁).relocked ⟨_, _, _, _, rfl⟩
      | true =>
          dsimp only at h
          cases hmem : s₁.mapBacking1 a₁ env with
          | none =>
              rw [hmem] at h
              cases h
          | some r =>
              obtain ⟨ok, b, t⟩ := r
              obtain ⟨hmap, hsome⟩ := mapBacking1_mapping hmem
              rw [hmem] at h
              cases ok with
              | false =>
                  cases h
                  exact hmap.mono.relocked ⟨_, _, _, _, rfl⟩
              | true =>
                  obtain ⟨n, -, -, -, rfl, -, -⟩ := mapBacking1_remapped hmem
                  have hmode : t.videoMode = s₁.videoMode := by
                    obtain ⟨m₀, m₁, r, w, c, k, rfl⟩ := hmap.rest
                    rfl
                  dsimp only at h
                  split at h
                  · rename_i hvideo
                    split at h
                    · cases h
                    split at h
                    · rename_i hscreen
                      cases h
                      refine hmap.trans (setupTrickBuffer_mapping t _ trick _ fun htrick => ?_)
                      obtain ⟨map, rfl⟩ := Option.ne_none_iff_exists'.mp htrick
                      rw [tricks, ← hmode, hvideo, hscreen, hsome rfl]
                      rfl
                    · cases h
                      exact hmap.mono
                  · cases h
                    exact hmap.mono

/-- `copy_framebuffer_region_to_self` obtains memory and maps it. -/
theorem copyFramebuffer_mappings {region : Option IOAccelDeviceRegion} {size : ℕ}
    {copied : IOReturn} (hcall : s.memoryCall (.copyFramebuffer region size env copied) = some env)
    (h : s.copyFramebuffer a region size env copied = some o) :
    Mappings a s (.copyFramebuffer region size env copied) env o.surface := by
  rw [memoryCall] at hcall
  rw [copyFramebuffer] at h
  split at h
  · grind
  split at h
  · grind
  split at h
  · grind
  split at h
  · grind
  split at h
  · cases h
  · rename_i b t halloc
    cases h
    exact ⟨s, _, _, _, .refl s, halloc, .refl _ _⟩
  · rename_i b t halloc
    split at h
    · cases h
    · cases h
      exact ⟨s, _, _, _, .refl s, halloc, .refl _ _⟩

/-- `copy_surface_region_to_self` obtains memory and maps it. -/
theorem copySurface_mappings {source : Surface} {region : Option IOAccelDeviceRegion} {size : ℕ}
    {copied : IOReturn}
    (hcall : s.memoryCall (.copySurface source region size env copied) = some env)
    (h : s.copySurface a source region size env copied = some o) :
    Mappings a s (.copySurface source region size env copied) env o.surface := by
  rw [memoryCall] at hcall
  rw [copySurface] at h
  split at h
  · grind
  split at h
  · grind
  split at h
  · grind
  split at h
  · grind
  split at h
  · cases h
  · rename_i b t halloc
    cases h
    exact ⟨s, _, _, _, .refl s, halloc, .refl _ _⟩
  · rename_i b t halloc
    cases h
    exact ⟨s, _, _, _, .refl s, halloc, .refl _ _⟩

/-- **A call that needs memory** obtains it and maps it. -/
theorem memory_mapping {op : SurfaceOp} (hcall : s.memoryCall op = some env)
    (h : s.apply a op = some o) : Mappings a s op env o.surface := by
  cases op with
  | readLock infoOk env' =>
      obtain rfl : env' = env := by
        rw [memoryCall] at hcall
        grind
      exact readLock_mappings hcall h
  | writeLock infoOk env' =>
      obtain rfl : env' = env := by
        rw [memoryCall] at hcall
        grind
      exact writeLock_mappings hcall h
  | contextLock argsOk env' trick =>
      obtain rfl : env' = env := by
        rw [memoryCall] at hcall
        grind
      exact contextLock_mappings hcall h
  | copyFramebuffer region size env' copied =>
      obtain rfl : env' = env := by
        rw [memoryCall] at hcall
        grind
      exact copyFramebuffer_mappings hcall h
  | copySurface source region size env' copied =>
      obtain rfl : env' = env := by
        rw [memoryCall] at hcall
        grind
      exact copySurface_mappings hcall h
  | setIdMode => cases hcall
  | setScale => cases hcall
  | setShape => cases hcall
  | readUnlock => cases hcall
  | writeUnlock => cases hcall
  | flush => cases hcall
  | close => cases hcall
  | contextSetSurface => cases hcall
  | contextScale => cases hcall
  | contextUnlock => cases hcall
  | flushVideo => cases hcall

/-! ### The other calls -/

/-- A call that needs no memory, is no unlock of a context and does not close the surface only
marks the transfer buffer. -/
theorem Change.backing_kept {op : SurfaceOp} (h : s.Change a op b t)
    (hcall : s.memoryCall op = none) (hunlock : op ≠ .contextUnlock) (hclose : op ≠ .close) :
    ∃ g, (g = s.backing.vtb.gartPtr ∨ s.backing.vtb.gartPtr ≠ 0 ∧ g = 2) ∧
      t.backing = (s.withMark g).backing := by
  have hsame : ∀ {u : Surface}, u.backing = s.backing →
      ∃ g, (g = s.backing.vtb.gartPtr ∨ s.backing.vtb.gartPtr ≠ 0 ∧ g = 2) ∧
        u.backing = (s.withMark g).backing := fun hu =>
    ⟨s.backing.vtb.gartPtr, .inl rfl, hu⟩
  cases h with
  | quiet hquiet => exact hsame hquiet.backing
  | unmapped hmap => exact absurd rfl hunlock
  | memory hcall' hlock halloc hmap =>
      rw [hcall] at hcall'
      cases hcall'
  | marked hg hquiet => exact ⟨_, hg, hquiet.backing⟩
  | shaped hg hquiet hshape hquiet' =>
      obtain ⟨-, v, rfl⟩ := videoReshape_kept hshape
      exact ⟨_, hg, hquiet'.backing.trans hquiet.backing⟩
  | plain hoff hquiet htest =>
      obtain ⟨-, v, rfl⟩ := surfaceVideoOff_kept hoff
      exact hsame hquiet.backing
  | video format hvmware hyuv hquiet => exact hsame hquiet.backing
  | streamless hflush halloc hid hquiet => exact hsame hquiet.backing
  | flushed hflush halloc hid hu =>
      subst hu
      exact hsame rfl
  | closed hquiet _ hoff hquiet' => exact absurd rfl hclose

/-- A closed surface has given its backing back. -/
theorem clientClose_backing (h : s.clientClose a = some o) : o.surface.backing = .init := by
  rw [clientClose] at h
  obtain ⟨⟨a₁, s₁⟩, -, heq⟩ := Option.map_eq_some_iff.mp h
  cases heq
  exact (clearLastRegion_quiet _).backing

/-- Maps that a call makes are of the backing. -/
theorem Mapping.mapped {tricks : Bool} (h : Mapping tricks s t) (hs : s.Mapped) : t.Mapped := by
  obtain ⟨m₀, m₁, r, w, c, k, rfl⟩ := h.rest
  have hfirst := h.first
  have hsecond := h.second
  refine ⟨fun hsome => ?_, fun m hm => ?_, fun m hm => ?_⟩
  · rcases hfirst with hkept | ⟨-, hmade⟩ | ⟨-, hvalid, -⟩
    · exact hs.valid (hkept ▸ hsome)
    · obtain ⟨m, hm⟩ := Option.isSome_iff_exists.mp hsome
      have hmemory := hmade m hm
      change s.isBackingValid = true
      rw [isBackingValid_iff, hmemory]
      rfl
    · exact hvalid
  · rcases hfirst with hkept | ⟨-, hmade⟩ | ⟨-, -, htrick⟩
    · exact hs.first m (hkept ▸ hm)
    · exact .inl (hmade m hm)
    · exact .inr (htrick m hm)
  · rcases hsecond with hkept | ⟨-, hmade⟩
    · exact hs.second m (hkept ▸ hm)
    · exact hmade m hm

/-- **A call** keeps the maps on the backing. -/
theorem Mapped.apply {op : SurfaceOp} (hs : s.Mapped) (h : s.apply a op = some o) :
    o.surface.Mapped := by
  cases hcall : s.memoryCall op with
  | some env =>
      obtain ⟨u, ok, a₁, s₁, hlock, halloc, hmap⟩ := memory_mapping hcall h
      exact hmap.mapped ((hs.relocked hlock).allocBacking halloc)
  | none =>
      by_cases hunlock : op = .contextUnlock
      · subst hunlock
        cases h
        exact ⟨hs.valid, hs.first, fun m hm => by cases hm⟩
      by_cases hclose : op = .close
      · subst hclose
        refine .of_none ?_
        rw [maps, clientClose_backing h]
        rfl
      obtain ⟨g, -, hbacking⟩ := (apply_change h).backing_kept hcall hunlock hclose
      refine hs.congr ?_ ?_ ?_
      all_goals first
        | rw [maps, hbacking]; rfl
        | rw [hbacking]; rfl

/-! ### Calls that only serve -/

/-- Only the backing, the overlay and the lock bits change. -/
def Served (s t : Surface) : Prop :=
  ∃ b v r w c k, t = { s with
    backing := b
    video := v
    lockedRead := r
    lockedWrite := w
    lockedContext := c
    skipWriteLockOnce := k }

/-- No call leaves the looks of a surface. -/
theorem Served.refl (s : Surface) : Served s s := ⟨_, _, _, _, _, _, rfl⟩

/-- Two calls that only serve leave the looks of a surface. -/
theorem Served.trans {u : Surface} (h : Served s t) (h' : Served t u) : Served s u := by
  obtain ⟨b, v, r, w, c, k, rfl⟩ := h
  obtain ⟨b', v', r', w', c', k', rfl⟩ := h'
  exact ⟨b', v', r', w', c', k', rfl⟩

/-- Lock bits are not part of the looks. -/
theorem Relocked.served (h : Relocked s t) : Served s t := by
  obtain ⟨r, w, c, k, rfl⟩ := h
  exact ⟨_, _, r, w, c, k, rfl⟩

/-- Maps are not part of the looks. -/
theorem Mapping.served {tricks : Bool} (h : Mapping tricks s t) : Served s t := by
  obtain ⟨m₀, m₁, r, w, c, k, rfl⟩ := h.rest
  exact ⟨_, _, r, w, c, k, rfl⟩

/-- `allocBacking` only serves. -/
theorem allocBacking_served {ok : Bool} (h : s.allocBacking a env = some (ok, b, t)) :
    Served s t := by
  obtain ⟨-, backing, rfl⟩ := allocBacking_kept h
  exact ⟨backing, _, _, _, _, _, rfl⟩

/-- So does the map that follows it. -/
theorem allocAndMap0_served {ok : Bool} (h : s.allocAndMap0 a env = some (ok, b, t)) :
    Served s t := by
  obtain ⟨ok', a₁, s₁, halloc, hmap⟩ := allocAndMap0_mapping h
  exact (allocBacking_served halloc).trans hmap.served

/-- `surface_read_lock_options` only serves. -/
theorem readLock_served {infoOk : Bool} (h : s.readLock a infoOk env = some o) :
    Served s o.surface := by
  rw [readLock] at h
  split at h
  · cases h
    exact .refl s
  split at h
  · cases h
    exact .refl s
  split at h
  · cases h
    exact .refl s
  dsimp only at h
  have hlocked : Served s { s with lockedRead := true } := ⟨_, _, _, _, _, _, rfl⟩
  split at h
  · cases h
    exact hlocked
  · obtain ⟨⟨ok, b, t⟩, hmem, heq⟩ := Option.map_eq_some_iff.mp h
    have hserved := hlocked.trans (allocAndMap0_served hmem)
    cases ok with
    | false =>
        cases heq
        exact hserved.trans ⟨_, _, _, _, _, _, rfl⟩
    | true =>
        cases heq
        exact hserved

/-- The part of `surface_write_lock_options` behind its tests only serves. -/
theorem writeLocked_served (h : s.writeLocked a env = some o) : Served s o.surface := by
  rw [writeLocked] at h
  split at h
  · cases h
    exact .refl s
  · obtain ⟨⟨ok, b, t⟩, hmem, heq⟩ := Option.map_eq_some_iff.mp h
    have hserved := allocAndMap0_served hmem
    cases ok with
    | false =>
        cases heq
        exact hserved.trans ⟨_, _, _, _, _, _, rfl⟩
    | true =>
        cases heq
        exact hserved

/-- `surface_write_lock_options` only serves. -/
theorem writeLock_served {infoOk : Bool} (h : s.writeLock a infoOk env = some o) :
    Served s o.surface := by
  rw [writeLock] at h
  split at h
  · cases h
    exact .refl s
  split at h
  · cases h
    exact .refl s
  split at h
  · exact Served.trans ⟨_, _, _, _, _, _, rfl⟩ (writeLocked_served h)
  split at h
  · cases h
    exact .refl s
  · exact Served.trans ⟨_, _, _, _, _, _, rfl⟩ (writeLocked_served h)

/-- A call that needs memory only serves. -/
theorem memoryCall_served {op : SurfaceOp} (hcall : s.memoryCall op = some env)
    (h : s.apply a op = some o) : Served s o.surface := by
  obtain ⟨u, ok, a₁, s₁, hlock, halloc, hmap⟩ := memory_mapping hcall h
  exact (hlock.served.trans (allocBacking_served halloc)).trans hmap.served

/-- A context's lock of the memory only serves. -/
theorem contextLock_served {argsOk : Bool} {trick : Option (Option ℕ)}
    (h : s.contextLock a argsOk env trick = some o) : Served s o.surface := by
  cases hcall : s.memoryCall (.contextLock argsOk env trick) with
  | some env' => exact memoryCall_served hcall h
  | none =>
      rw [memoryCall] at hcall
      rw [contextLock] at h
      split at h
      · cases h
        exact .refl s
      split at h
      · cases h
        exact .refl s
      split at h
      · cases h
        exact .refl s
      · grind

/-- `copy_framebuffer_region_to_self` only serves. -/
theorem copyFramebuffer_served {region : Option IOAccelDeviceRegion} {size : ℕ}
    {copied : IOReturn} (h : s.copyFramebuffer a region size env copied = some o) :
    Served s o.surface := by
  rw [copyFramebuffer] at h
  split at h
  · cases h
    exact .refl s
  split at h
  · cases h
    exact .refl s
  split at h
  · cases h
    exact .refl s
  split at h
  · cases h
    exact .refl s
  split at h
  · cases h
  · rename_i b t halloc
    cases h
    exact allocBacking_served halloc
  · rename_i b t halloc
    split at h
    · cases h
    · cases h
      exact allocBacking_served halloc

/-- `copy_surface_region_to_self` only serves. -/
theorem copySurface_served {source : Surface} {region : Option IOAccelDeviceRegion} {size : ℕ}
    {copied : IOReturn} (h : s.copySurface a source region size env copied = some o) :
    Served s o.surface := by
  rw [copySurface] at h
  split at h
  · cases h
    exact .refl s
  split at h
  · cases h
    exact .refl s
  split at h
  · cases h
    exact .refl s
  split at h
  · cases h
    exact .refl s
  split at h
  · cases h
  · rename_i b t halloc
    cases h
    exact allocBacking_served halloc
  · rename_i b t halloc
    cases h
    exact allocBacking_served halloc

/-- `surface_flush_video` only serves. -/
theorem surfaceFlushVideo_served (h : s.surfaceFlushVideo a = some o) : Served s o.surface := by
  rw [surfaceFlushVideo] at h
  split at h
  · cases h
    exact .refl s
  split at h
  · cases h
    exact .refl s
  split at h
  · cases h
    exact .refl s
  split at h
  · cases h
  split at h
  · cases h
    exact .refl s
  dsimp only at h
  split at h
  · cases h
    exact ⟨_, _, _, _, _, _, rfl⟩
  · cases h
    exact ⟨_, _, _, _, _, _, rfl⟩

/-- **A call that only serves** changes the backing, the overlay and the lock bits. -/
theorem apply_served {op : SurfaceOp} (h : s.apply a op = some o) (hop : op.serves = true) :
    Served s o.surface := by
  cases op with
  | readLock infoOk env => exact readLock_served h
  | readUnlock =>
      cases h
      exact ⟨_, _, _, _, _, _, rfl⟩
  | writeLock infoOk env => exact writeLock_served h
  | writeUnlock =>
      cases h
      exact ⟨_, _, _, _, _, _, rfl⟩
  | flush out present =>
      rw [(surfaceFlush_quiet h).2]
      exact .refl s
  | contextLock argsOk env trick => exact contextLock_served h
  | contextUnlock =>
      cases h
      exact ⟨_, _, _, _, _, _, rfl⟩
  | copyFramebuffer region size env copied => exact copyFramebuffer_served h
  | copySurface source region size env copied => exact copySurface_served h
  | flushVideo => exact surfaceFlushVideo_served h
  | setIdMode => cases hop
  | setScale => cases hop
  | setShape => cases hop
  | close => cases hop
  | contextSetSurface => cases hop
  | contextScale => cases hop

/-! ### The way to the screen -/

/-- Only the way to the screen changes. -/
def Refronted (s t : Surface) : Prop :=
  ∃ o m d, t = { s with haveScreenObject := o, haveMasterSurface := m, directBlit := d }

/-- `Cleanup3D` changes the way to the screen. -/
theorem cleanup3D_refronted (s : Surface) : Refronted s s.cleanup3D := by
  rw [cleanup3D]
  split <;> exact ⟨_, _, _, rfl⟩

/-- `Start3D` changes the way to the screen. -/
theorem start3D_refronted {env : Start3DEnv} (h : s.start3D a env = some (b, t)) :
    Refronted s t := by
  rw [start3D] at h
  split at h
  · cases h
  split at h
  · cases h
    exact ⟨_, _, _, rfl⟩
  dsimp only at h
  split at h
  · cases h
    exact ⟨_, _, _, rfl⟩
  split at h
  · cases h
    exact ⟨_, _, _, rfl⟩
  split at h
  · cases h
    exact ⟨_, _, _, rfl⟩
  · cases h
    exact ⟨_, _, _, rfl⟩

/-- A surface that is shown again changes its way to the screen, if it has none. -/
theorem restart_refronted {env : Start3DEnv}
    (h : (if s.haveFrontBuffer then some (a, s) else s.start3D a env) = some (b, t)) :
    Refronted s t := by
  split at h
  · cases h
    exact ⟨_, _, _, rfl⟩
  · exact start3D_refronted h

/-! ### The client's own memory -/

/-- The way to the screen does not lead by the client's memory. -/
theorem Refronted.client (h : Refronted s t) : t.clientBacking = s.clientBacking := by
  obtain ⟨o, m, d, rfl⟩ := h
  rfl

/-- Forgetting the last region keeps the client's memory. -/
theorem clearLastRegion_client (s : Surface) :
    s.clearLastRegion.clientBacking = s.clientBacking := by
  rw [clearLastRegion]
  split <;> rfl

/-- `Start3D` keeps the client's memory. -/
theorem start3D_client {env : Start3DEnv} (h : s.start3D a env = some (b, t)) :
    t.clientBacking = s.clientBacking := (start3D_refronted h).client

/-- The formats and the id that are set keep the client's memory. -/
theorem setMode_client (s : Surface) (a : Accel) (wID : ℕ) (mode : SurfaceMode) :
    (s.setMode a wID mode).surface.clientBacking = s.clientBacking := by
  rw [setMode]
  split
  · rfl
  split
  · rfl
  split <;> rfl

/-- `set_id_mode` keeps the client's memory. -/
theorem setIdMode_client {wID : ℕ} {mode : SurfaceMode} {screen : IOReturn}
    (h : s.setIdMode a wID mode screen = some o) : o.surface.clientBacking = s.clientBacking := by
  rw [setIdMode] at h
  split at h
  · split at h
    · cases h
      rfl
    split at h
    · split at h
      · cases h
      split at h
      · cases h
        rfl
      · cases h
        exact setMode_client s a wID mode
    · cases h
      exact setMode_client s a wID mode
  · cases h
    exact setMode_client s a wID mode

/-- `set_scale` keeps the client's memory. -/
theorem setScale_client (s : Surface) (a : Accel)
    (scaling : Option (IOAccelBounds × Int16 × Int16)) :
    (s.setScale a scaling).surface.clientBacking = s.clientBacking := by
  cases scaling <;> rfl

/-- A context that scales its surface keeps the client's memory. -/
theorem contextScale_client (s : Surface) (a : Accel) (fixedSource : Bool) (width height : ℕ) :
    (s.contextScale a fixedSource width height).surface.clientBacking = s.clientBacking := by
  rw [contextScale]
  split <;> rfl

/-- `context_set_surface` keeps the client's memory. -/
theorem contextSetSurface_client {vmware : ℕ} {apple : PixelFormat} {env : Start3DEnv}
    (h : s.contextSetSurface a vmware apple env = some o) :
    o.surface.clientBacking = s.clientBacking := by
  rw [contextSetSurface] at h
  split at h
  · split at h
    · cases h
    rename_i a₁ s₁ hoff
    obtain ⟨-, v, rfl⟩ := surfaceVideoOff_kept hoff
    obtain ⟨⟨b, t⟩, hstart, heq⟩ := Option.map_eq_some_iff.mp h
    cases heq
    have hformat : ∀ u : Surface, (if apple = .bgra32 then
        { u with surfaceFormat := .a8r8g8b8, bytesPerPixel := 4, pixelFormat := .depth8888 }
        else u).clientBacking = u.clientBacking := by
      intro u
      split <;> rfl
    exact (restart_refronted hstart).client.trans (hformat _)
  · split at h
    · cases h
      rfl
    · cases h
      exact (cleanup3D_refronted _).client

/-- `clientClose` keeps what is said of the client's memory. -/
theorem clientClose_client (h : s.clientClose a = some o) :
    o.surface.clientBacking = s.clientBacking := by
  rw [clientClose] at h
  obtain ⟨⟨a₁, s₁⟩, hoff, heq⟩ := Option.map_eq_some_iff.mp h
  cases heq
  refine (clearLastRegion_client _).trans ?_
  split at hoff
  · obtain ⟨-, v, rfl⟩ := surfaceVideoOff_kept hoff
    exact (cleanup3D_refronted s).client
  · cases hoff
    rfl

/-- Only a new shape changes what the driver knows of the client's own memory. -/
theorem apply_client {op : SurfaceOp} (h : s.apply a op = some o)
    (hshape : ∀ args, op ≠ .setShape args) : o.surface.clientBacking = s.clientBacking := by
  by_cases hop : op.serves = true
  · obtain ⟨b, v, r, w, c, k, heq⟩ := apply_served h hop
    rw [heq]
  cases op with
  | setIdMode wID mode screen => exact setIdMode_client h
  | setScale scaling =>
      cases h
      exact setScale_client s a scaling
  | setShape args => exact absurd rfl (hshape args)
  | close => exact clientClose_client h
  | contextSetSurface vmware apple env => exact contextSetSurface_client h
  | contextScale fixedSource width height =>
      cases h
      exact contextScale_client s a fixedSource width height
  | _ => exact absurd rfl hop

end Surface

/-- Every action keeps the maps on the backings. -/
theorem Surface.Mapped.action {w w' : World} {act : Action} (h : ∀ i, (w.surfaces i).Mapped)
    (hstep : w.step act = some w') : ∀ i, (w'.surfaces i).Mapped := by
  refine World.local_rule hstep h (fun _ hs happly => hs.apply happly) ?_
  intro i screenInfo env o hs hstart
  obtain ⟨-, hquiet⟩ := Surface.start_tested hstart
  refine hs.congr ?_ ?_ ?_
  · rw [maps, hquiet.backing]
    rfl
  all_goals rw [hquiet.backing]

end DockerMacos
