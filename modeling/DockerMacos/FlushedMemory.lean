import DockerMacos.HeldLocks

/-!
# The Memory That a Flush Reads

A write lock hands out the client's own memory when there is a client backing, and a map of the
backing otherwise. A flush always reads the backing. The two are the same memory as long as the
backing is not exchanged, and for the client's memory only once a call of a 2D context has
wrapped it: the locks of the surface's own client do not.

## The mark

The transfer buffer of a client backing has a mark that is changed when the client comes with
other memory. `Wrapped` says what the mark means: a marked buffer is a descriptor of client
memory, and of the present one when the mark says so.

## Runs

Surface `i` is locked for writing, and any calls of it and of all others may follow, until it is
flushed. `World.Keeps` is what the lock leaves and what the calls in between keep, if none of
them takes away what has been handed out (`replaces`).

## Main results

* `keeps_memory`: only a call that needs memory exchanges the backing, or the close.
* `Wrapped.apply`: a client descriptor that is not marked is of the client's present memory.
* `writeLock_hands`: what a write lock hands out.
* `flush_reads_locked`: when a flush reads the memory that the last write lock has handed out.
-/

namespace DockerMacos

/-- The black buffer of a video surface. -/
def Memory.isTrick : Memory → Bool
  | .trick _ => true
  | _ => false

/-- The client's pages from the one of an address on. -/
def clientMemory (addr : ℕ) : Memory := .client (addr / pageSize * pageSize)

/-- The memory that is pinned. -/
def Pin.memory : Pin → Memory
  | .client addr => clientMemory addr
  | .mapped m => m.memory

namespace Surface

/-- A write lock hands out the black buffer: it is in the place of the first map, and
`allocBacking` has nothing to do. -/
def locksTrick (s : Surface) : Bool :=
  !s.isClientBackingValid && s.settled && s.backing.map0.any (·.memory.isTrick)

/-- The call takes away what a write lock has handed out: the client's own memory gives way to a
shape, the backing to a call that needs memory. -/
def replaces (s : Surface) (client : Bool) : SurfaceOp → Bool
  | .close => true
  | .setShape args => client && !s.keepsClient args
  | op => !client && (s.memoryCall op).isSome && !s.settled

/-- **The invariant** of the mark: a buffer with a mark is a descriptor of client memory, and of
the present one when the mark says so. -/
structure Wrapped (s : Surface) : Prop where
  marked : s.backing.vtb.gartPtr ≠ 0 → s.backing.self = 0 ∧ s.backing.vtb.md.isSome = true
  current : s.backing.vtb.gartPtr = 1 → s.clientBacking.addr ≠ 0 → ∀ md,
    s.backing.vtb.md = some md → md.memory = clientMemory s.clientBacking.addr

end Surface

/-- What a flush of surface `i` reads lies in this memory. A transfer from VRAM starts in the
block at the byte offset of the buffer, and one from a region names the region. -/
inductive World.Reads (w : World) (i : ℕ) : Flushed → Memory → Prop
  | vram {t : Transfer} {p : ℕ} : t.gmrId = gmrVram → (w.accel.vram.live p).isSome = true →
      t.offset = (p - w.accel.vram.alloc.poolStart + (w.surfaces i).scale.byteOffset) % 2 ^ 32 →
      World.Reads w i (.dma t) (.vram p)
  | region {t : Transfer} {md : MemoryDescriptor} : t.gmrId ≠ gmrVram →
      w.accel.gmrs t.gmrId = some md → World.Reads w i (.dma t) md.memory
  | copied {m : Memory} : World.Reads w i (.copied (some m)) m

/-- A transfer from VRAM reads a block. -/
theorem World.Reads.block {w : World} {i : ℕ} {t : Transfer} {m : Memory}
    (h : w.Reads i (.dma t) m) (ht : t.gmrId = gmrVram) : ∃ p, m = .vram p := by
  cases h with
  | vram => exact ⟨_, rfl⟩
  | region hgmr => exact absurd ht hgmr

/-- The action takes away what a write lock of surface `i` has handed out. -/
def World.replaces (w : World) (i : ℕ) (client : Bool) (act : Action) : Bool :=
  match w.called act with
  | some (j, op) => j == i && (w.surfaces i).replaces client op
  | none => false

/-! ### The mark -/

/-- A preparation changes the id at most. -/
theorem VendorTransferBuffer.prepare_id (vtb : VendorTransferBuffer) (provider : Bool)
    (a : Accel) (env : BackingEnv) :
    ∃ id, (vtb.prepare provider a env).2.2 = { vtb with gmrId := id } := by
  rw [prepare]
  split
  · exact ⟨_, rfl⟩
  split
  · exact ⟨_, rfl⟩
  split
  · exact ⟨_, rfl⟩
  · dsimp only
    split
    · exact ⟨_, rfl⟩
    split
    · exact ⟨_, rfl⟩
    split <;> exact ⟨_, rfl⟩

/-- To give up a region does not change the mark. -/
theorem VendorTransferBuffer.complete_mark (vtb : VendorTransferBuffer) (provider : Bool)
    (a : Accel) : (vtb.complete provider a).2.gartPtr = vtb.gartPtr := by
  rw [complete]
  split <;> rfl

namespace Surface

variable {a b : Accel} {s t : Surface} {o : Outcome} {env : BackingEnv}

/-- Without a mark nothing is said. -/
theorem Wrapped.unmarked (h : s.backing.vtb.gartPtr = 0) : s.Wrapped := by
  refine ⟨fun hne => absurd h hne, fun hone => ?_⟩
  rw [h] at hone
  cases hone

/-- Memory that is prepared is wrapped, with the mark that it is given. -/
theorem prepareBacking_wrapped (a : Accel) (env : BackingEnv) {md : MemoryDescriptor}
    {gartPtr : ℕ} (hself : s.backing.self = 0) (hmark : s.backing.vtb.gartPtr = 0)
    (hmd : gartPtr = 1 → md.memory = clientMemory s.clientBacking.addr) :
    (s.prepareBacking a env md gartPtr).2.2.Wrapped := by
  obtain ⟨id, hid⟩ := VendorTransferBuffer.prepare_id { s.backing.vtb with md := some md }
    s.provider a env
  rw [prepareBacking]
  split
  · rename_i b vtb heq
    rw [heq] at hid
    obtain rfl : vtb = _ := hid
    refine ⟨fun _ => ⟨hself, rfl⟩, fun hone _ md' hmd' => ?_⟩
    obtain rfl : md = md' := Option.some.inj hmd'
    exact hmd hone
  · rename_i b vtb _ heq
    rw [heq] at hid
    obtain rfl : vtb = _ := hid
    exact .unmarked hmark

/-- The client's memory is wrapped, or there is no mark. -/
theorem wrapClient_wrapped (a : Accel) (env : BackingEnv) (hself : s.backing.self = 0)
    (hmark : s.backing.vtb.gartPtr = 0) : (s.wrapClient a env).2.2.Wrapped := by
  rw [wrapClient]
  dsimp only
  split
  · exact prepareBacking_wrapped _ env hself hmark fun _ => rfl
  · exact .unmarked hmark

/-- A new backing is wrapped, or there is no mark. -/
theorem allocNew_wrapped {ok : Bool} (hmark : s.backing.vtb.gartPtr = 0)
    (h : s.allocNew a env = some (ok, b, t)) : t.Wrapped := by
  rw [allocNew] at h
  split at h
  · cases h
  dsimp only at h
  split at h
  · rename_i hnull
    have hgmr : ∀ (u : Surface) (c : Accel), u.backing.self = 0 → u.backing.vtb.gartPtr = 0 →
        (u.allocGMRBacking c env).2.2.Wrapped := by
      intro u c hself hmark
      rw [allocGMRBacking]
      split
      · exact prepareBacking_wrapped _ env hself hmark fun hone => by cases hone
      · exact .unmarked hmark
    have hnew := hgmr { s with backing := { s.backing with
      size := s.scale.byteSize
      self := (a.vramRealloc s.backing.self s.scale.byteSize env.vramFails).2 } }
      (a.vramRealloc s.backing.self s.scale.byteSize env.vramFails).1 hnull hmark
    rw [Option.some.injEq] at h
    rw [h] at hnew
    exact hnew
  · cases h
    exact .unmarked hmark

/-- Memory of the kernel, or none, has no mark. -/
theorem Wrapped.mark_eq (h : s.Wrapped) (hclass : s.classifyBacking ≠ .client) :
    s.backing.vtb.gartPtr = 0 := by
  by_contra hmark
  obtain ⟨hself, hmd⟩ := h.marked hmark
  exact hclass (by rw [classifyBacking, if_neg (not_not.mpr hself), if_pos hmd, if_pos hmark])

/-- A descriptor of client memory that is up to date is the backing. -/
theorem Wrapped.memory (h : s.Wrapped) (hmark : s.backing.vtb.gartPtr = 1)
    (hclient : s.clientBacking.addr ≠ 0) :
    s.backingMemory = some (clientMemory s.clientBacking.addr) := by
  obtain ⟨hself, hsome⟩ := h.marked (by rw [hmark]; decide)
  obtain ⟨md, hmd⟩ := Option.isSome_iff_exists.mp hsome
  rw [backingMemory, if_neg (not_not.mpr hself), hmd, ← h.current hmark hclient md hmd]
  rfl

/-- `allocBacking` keeps what the mark says. -/
theorem allocBacking_wrapped {ok : Bool} (h : s.Wrapped)
    (halloc : s.allocBacking a env = some (ok, b, t)) : t.Wrapped := by
  rw [allocBacking] at halloc
  split at halloc
  · have hwrap : (s.wrapClientBacking a env).2.2.Wrapped := by
      rw [wrapClientBacking]
      split
      · exact wrapClient_wrapped _ env rfl rfl
      · split
        · exact h
        · exact wrapClient_wrapped _ env rfl rfl
      · rename_i hclass
        have hself : s.backing.self = 0 := by
          by_contra hself
          rw [classifyBacking, if_pos hself] at hclass
          cases hclass
        exact wrapClient_wrapped _ env hself (h.mark_eq (by rw [hclass]; decide))
    rw [Option.some.injEq] at halloc
    rw [halloc] at hwrap
    exact hwrap
  split at halloc
  · rename_i hclass
    split at halloc
    · cases halloc
      exact h
    · refine allocNew_wrapped ?_ halloc
      exact (s.backing.vtb.complete_mark s.provider a).trans
        (h.mark_eq (by rw [hclass]; decide))
  · exact allocNew_wrapped rfl halloc
  · rename_i hclass
    exact allocNew_wrapped (h.mark_eq (by rw [hclass]; decide)) halloc

/-- The invariant depends on the buffer and the client's memory only. -/
theorem Wrapped.congr (h : s.Wrapped) (hself : t.backing.self = s.backing.self)
    (hvtb : t.backing.vtb = s.backing.vtb)
    (hclient : t.clientBacking.addr = s.clientBacking.addr) : t.Wrapped := by
  refine ⟨?_, ?_⟩
  · rw [hvtb, hself]
    exact h.marked
  · rw [hvtb, hclient]
    exact h.current

/-- A new shape keeps what the driver knows of the client's memory, forgets it, or marks a
descriptor of other memory. -/
theorem setShape_marks {args : ShapeArgs} (h : s.setShape a args = some o) :
    o.surface.clientBacking = s.clientBacking ∨ o.surface.clientBacking.addr = 0 ∨
      o.surface.backing.vtb.gartPtr ≠ 1 := by
  rw [setShape] at h
  split at h
  · cases h
    exact .inl rfl
  split at h
  · cases h
    exact .inl rfl
  split at h
  · cases h
    exact .inl rfl
  dsimp only at h
  split at h
  · cases h
    exact .inr (.inl rfl)
  split at h
  · cases h
    exact .inr (.inl rfl)
  split at h
  · cases h
    exact .inr (.inl rfl)
  · rename_i client hclient
    split at h
    · cases h
      exact .inr (.inl rfl)
    · obtain ⟨⟨b, v⟩, hshape, heq⟩ := Option.map_eq_some_iff.mp h
      cases heq
      obtain ⟨-, video, rfl⟩ := videoReshape_kept hshape
      have hrecord : ∀ u : Surface, u.clientBacking.addr = 0 →
          (u.recordClientBacking client).clientBacking.addr = 0 ∨
            (u.recordClientBacking client).backing.vtb.gartPtr ≠ 1 := by
        intro u hu
        cases client with
        | none => exact .inl hu
        | some c =>
            refine .inr ?_
            simp only [recordClientBacking]
            split <;> omega
      refine .inr ?_
      split
      · exact hrecord _ rfl
      · exact hrecord _ rfl

/-- **A call** keeps the mark true. -/
theorem Wrapped.apply {op : SurfaceOp} (hs : s.Wrapped) (h : s.apply a op = some o) :
    o.surface.Wrapped := by
  cases hcall : s.memoryCall op with
  | some env =>
      obtain ⟨u, ok, a₁, s₁, hlock, halloc, hmap⟩ := memory_mapping hcall h
      have hu : u.Wrapped := by
        obtain ⟨r, w, c, k, rfl⟩ := hlock
        exact hs.congr rfl rfl rfl
      have hwrapped := allocBacking_wrapped hu halloc
      obtain ⟨m₀, m₁, r', w', c', k', hrest⟩ := hmap.rest
      rw [hrest]
      exact hwrapped.congr rfl rfl rfl
  | none =>
      by_cases hunlock : op = .contextUnlock
      · subst hunlock
        cases h
        exact hs.congr rfl rfl rfl
      by_cases hclose : op = .close
      · subst hclose
        refine .unmarked ?_
        rw [clientClose_backing h]
        rfl
      obtain ⟨g, hg, hbacking⟩ := (apply_change h).backing_kept hcall hunlock hclose
      have hmark : o.surface.backing.vtb.gartPtr = g := by rw [hbacking]; rfl
      refine ⟨fun hne => ?_, fun hone haddr md hmd => ?_⟩
      · rw [hbacking]
        refine hs.marked ?_
        rcases hg with rfl | ⟨hmarked, -⟩
        · exact hmark ▸ hne
        · exact hmarked
      · have hclient : o.surface.clientBacking = s.clientBacking := by
          by_cases hshape : ∃ args, op = .setShape args
          · obtain ⟨args, rfl⟩ := hshape
            rcases setShape_marks h with hkept | hnone | hother
            · exact hkept
            · exact absurd hnone haddr
            · exact absurd hone hother
          · exact apply_client h fun args hop => hshape ⟨args, hop⟩
        rw [hbacking] at hmd
        rw [hclient] at haddr ⊢
        rcases hg with rfl | ⟨-, rfl⟩
        · exact hs.current (hmark ▸ hone) haddr md hmd
        · rw [hmark] at hone
          cases hone

/-! ### The memory of the backing -/

/-- **A call** that does not replace what a write lock has handed out keeps the backing, or the
client's memory. -/
theorem keeps_memory {op : SurfaceOp} (h : s.apply a op = some o)
    (hkeeps : s.replaces false op = false) : o.surface.backingMemory = s.backingMemory := by
  cases hcall : s.memoryCall op with
  | some env =>
      have hsettled : s.settled = true := by
        by_contra hs
        cases op <;> simp [replaces, hcall, hs] at hkeeps
        all_goals cases hcall
      obtain ⟨u, ok, a₁, s₁, hlock, halloc, hmap⟩ := memory_mapping hcall h
      rw [allocBacking_settled ((settled_relocked hlock).trans hsettled)] at halloc
      cases halloc
      obtain ⟨r, w, c, k, rfl⟩ := hlock
      obtain ⟨m₀, m₁, r', w', c', k', hrest⟩ := hmap.rest
      rw [hrest]
      rfl
  | none =>
      by_cases hunlock : op = .contextUnlock
      · subst hunlock
        cases h
        rfl
      have hclose : op ≠ .close := by
        rintro rfl
        cases hkeeps
      obtain ⟨g, -, hbacking⟩ := (apply_change h).backing_kept hcall hunlock hclose
      rw [backingMemory, hbacking]
      rfl

/-- A call that does not replace the client's memory leaves it where it is. -/
theorem keeps_clientMemory {op : SurfaceOp} (h : s.apply a op = some o)
    (hkeeps : s.replaces true op = false) :
    o.surface.clientBacking.addr = s.clientBacking.addr := by
  have hpinned : s.displaces a .write (.client s.clientBacking.addr) op = false := by
    cases op with
    | setShape args => exact hkeeps
    | _ => rfl
  exact keeps_client rfl h hpinned

/-! ### What a write lock hands out -/

/-- A write lock without client memory needs memory. -/
theorem writeLock_memoryCall {infoOk : Bool} (h : s.writeLock a infoOk env = some o)
    (hok : o.ret = .success) (hclient : s.isClientBackingValid = false) :
    s.memoryCall (.writeLock infoOk env) = some env := by
  rw [writeLock] at h
  split at h
  · cases h
    cases hok
  rename_i hinfo
  split at h
  · cases h
    cases hok
  rename_i hready
  rw [Bool.or_eq_true, not_or] at hready
  have hskip : (s.skipWriteLockOnce || !s.lockedWrite) = true := by
    split at h
    · rename_i hskip
      rw [hskip, Bool.true_or]
    · split at h
      · cases h
        cases hok
      · rename_i hfree
        rw [Bool.eq_false_of_not_eq_true hfree, Bool.not_false, Bool.or_true]
  simp_all [memoryCall]

/-- **A write lock** hands out the client's memory, or a map of the backing. -/
theorem writeLock_hands {infoOk : Bool} (hs : s.Mapped) (htrick : s.locksTrick = false)
    (h : s.apply a (.writeLock infoOk env) = some o) (hok : o.ret = .success) :
    ∃ pin, o.address .write = some (o.surface.lockAddress .write pin) ∧
      if s.isClientBackingValid = true then
        pin = .client s.clientBacking.addr ∧
          o.surface.clientBacking.addr = s.clientBacking.addr
      else o.surface.backingMemory = some pin.memory := by
  have hkept : o.surface.clientBacking = s.clientBacking :=
    apply_client h fun args hop => by cases hop
  obtain ⟨pin, hpin, haddress⟩ := writeLock_pins h hok
  refine ⟨pin, haddress, ?_⟩
  have hsame : o.surface.isClientBackingValid = s.isClientBackingValid := by
    rw [isClientBackingValid, isClientBackingValid, hkept]
  rw [Surface.pin, hsame] at hpin
  split
  · rename_i hclient
    rw [hclient, hkept] at hpin
    exact ⟨(Option.some.inj hpin).symm, by rw [hkept]⟩
  · rename_i hclient
    have hclient := Bool.eq_false_of_not_eq_true hclient
    have hcall := writeLock_memoryCall h hok hclient
    rw [hclient] at hpin
    obtain ⟨m, hm, rfl⟩ := Option.map_eq_some_iff.mp hpin
    have hm : o.surface.backing.map0 = some m := hm
    obtain ⟨u, ok, a₁, s₁, hlock, halloc, hmap⟩ := memory_mapping hcall h
    have hmemory : o.surface.backingMemory = s₁.backingMemory := by
      obtain ⟨m₀, m₁, r, w, c, k, hrest⟩ := hmap.rest
      rw [hrest]
      rfl
    rw [hmemory]
    rcases hmap.first with hkept | ⟨-, hmade⟩ | ⟨hfalse, -⟩
    · rw [hm] at hkept
      by_cases hsettled : s.settled = true
      · rw [allocBacking_settled ((settled_relocked hlock).trans hsettled)] at halloc
        cases halloc
        obtain ⟨r, w, c, k, rfl⟩ := hlock
        have hfirst : s.backing.map0 = some m := hkept.symm
        rcases hs.first m hfirst with hbacked | ⟨n, htricked⟩
        · exact hbacked
        · rw [locksTrick, hclient, hsettled, hfirst] at htrick
          simp [htricked, Memory.isTrick] at htrick
      · -- the backing is exchanged, and no map is left to be kept
        rw [← settled_relocked hlock] at hsettled
        have hnone := allocBacking_unsettled (hs.relocked hlock) hsettled halloc
        rw [maps, ← hkept] at hnone
        cases hnone
    · exact hmade m hm
    · cases hfalse

/-! ### What a flush reads -/

/-- A flush that reads something reads the backing. -/
theorem surfaceFlush_flushed {out present : IOReturn} {f : Flushed}
    (h : s.surfaceFlush a out present = some o) (hf : o.flushed = some f) :
    ∃ r kind, s.lastRegion = some r ∧ s.haveID = true ∧ s.isBackingValid = true ∧
      s.videoMode = false ∧ s.dmaType a r = .ok kind ∧ f = s.flushed r kind := by
  rw [surfaceFlush] at h
  split at h
  · cases h
    cases hf
  rename_i r hr
  split at h
  · cases h
    cases hf
  rename_i hready
  split at h
  · cases h
    cases hf
  rename_i hvideo
  split at h
  · cases h
  split at h
  · cases h
    cases hf
  rename_i kind hkind
  split at h
  · cases h
  split at h
  · cases h
    cases hf
  · cases h
    simp only [Bool.or_eq_true, Bool.not_eq_true', not_or, Bool.not_eq_false] at hready
    exact ⟨r, kind, hr, hready.1, hready.2, Bool.eq_false_of_not_eq_true hvideo, hkind,
      (Option.some.inj hf).symm⟩

end Surface

/-! ### Runs -/

namespace World

/-- A call of the surface's own client is a call of the surface. -/
theorem called_client {w w' : World} {i : ℕ} {op : SurfaceOp} {ret : IOReturn}
    {out : Option Outcome} (h : w.result (.client i op) = .ok w' ret out) :
    w.called (.client i op) = some (i, op) := by
  rw [result] at h
  split at h
  · rename_i hmay
    exact if_pos hmay
  · cases h

/-- A client's call that returns is a call of the surface. -/
theorem result_client {w w' : World} {i : ℕ} {op : SurfaceOp} {ret : IOReturn} {o : Outcome}
    (h : w.result (.client i op) = .ok w' ret (some o)) :
    (w.surfaces i).apply w.accel op = some o ∧ o.ret = ret ∧ w'.surfaces i = o.surface :=
  result_called (called_client h) h

/-- Every action keeps the marks true. -/
theorem wrapped_step {w w' : World} {act : Action} (h : ∀ i, (w.surfaces i).Wrapped)
    (hstep : w.step act = some w') : ∀ i, (w'.surfaces i).Wrapped := by
  refine local_rule hstep h (fun _ hs happly => hs.apply happly) ?_
  intro i screenInfo env o hs hstart
  obtain ⟨-, hquiet⟩ := Surface.start_tested hstart
  obtain ⟨⟨b, t⟩, hstart3D, heq⟩ := Option.map_eq_some_iff.mp hstart
  cases heq
  have hclient := Surface.start3D_client hstart3D
  refine hs.congr ?_ ?_ ?_
  · rw [hquiet.backing]
  · rw [hquiet.backing]
  · rw [hclient]

/-- **The invariant**: the maps, the blocks and the regions are those of the backings. -/
structure FlushInv (maxGmrIds : ℕ) (w : World) : Prop where
  maps : w.MapsInv
  gmrs : GmrBackings maxGmrIds w.accel w.surfaces
  labels : ∀ i, (w.surfaces i).Labelled
  wrapped : ∀ i, (w.surfaces i).Wrapped

namespace FlushInv

variable {maxGmrIds : ℕ} {w w' : World} {i : ℕ}

/-- **An action** keeps all that a flush relies on. -/
theorem step {act : Action} (h : w.FlushInv maxGmrIds) (hstep : w.step act = some w') :
    w'.FlushInv maxGmrIds :=
  ⟨h.maps.step hstep, h.gmrs.action hstep, Surface.Labelled.action h.labels hstep,
    wrapped_step h.wrapped hstep⟩

/-- All that holds at the start. -/
theorem start {z alloc : VMsvga2Allocator} {e : AccelSetup}
    (hsetup : setupAllocator z e.vram = (.success, alloc)) :
    (World.start (.start e alloc)).FlushInv e.maxGmrIds := by
  refine ⟨.start hsetup, .start e alloc fun _ => rfl, fun i => ⟨fun hne => absurd rfl hne, ?_⟩,
    fun i => .unmarked rfl⟩
  rintro ⟨⟩

/-- A transfer from a backing reads the memory of the backing. -/
theorem transfer_reads (h : w.FlushInv maxGmrIds) (bytesPerPixel : ℕ) (boxes : List GuestBox)
    {m : Memory} (hm : (w.surfaces i).backingMemory = some m) :
    w.Reads i (.dma ((w.surfaces i).transfer bytesPerPixel boxes)) m := by
  rw [Surface.backingMemory] at hm
  split at hm
  · rename_i hself
    cases hm
    refine .vram ((h.labels i).vram hself) ?_ ?_
    · rw [h.maps.blocks.sized i hself]
      rfl
    · rw [← h.maps.blocks.placed i hself]
      rfl
  · obtain ⟨md, hmd, rfl⟩ := Option.map_eq_some_iff.mp hm
    obtain ⟨id, hregion⟩ : ∃ id, (w.surfaces i).backing.vtb.region = some id := by
      by_contra hnone
      have hidle := h.gmrs.inv.idle i (by
        simpa only [not_exists, ← Option.eq_none_iff_forall_ne_some] using hnone)
      rw [hmd] at hidle
      cases hidle
    obtain ⟨md', hmd', hgmr⟩ := h.gmrs.inv.region i id hregion
    obtain rfl := Option.some.inj (hmd.symm.trans hmd')
    obtain ⟨hvalid, rfl⟩ := VendorTransferBuffer.region_eq_some.mp hregion
    refine .region (fun heq => ?_) hgmr
    rw [show (w.surfaces i).backing.vtb.gmrId = gmrVram from heq, isIdValid_gmrVram] at hvalid
    cases hvalid

/-- A surface with a block of VRAM has no descriptor. -/
theorem md_eq_none (h : w.FlushInv maxGmrIds) (hself : (w.surfaces i).backing.self ≠ 0) :
    (w.surfaces i).backing.vtb.md = none := by
  refine h.gmrs.inv.idle i (VendorTransferBuffer.region_eq_none.mpr ?_)
  rw [(h.labels i).vram hself]
  rfl

/-- **A flush** reads the memory of the backing. -/
theorem flush_reads (h : w.FlushInv maxGmrIds) {out present : IOReturn} {o : Outcome}
    {f : Flushed} (hflush : (w.surfaces i).surfaceFlush w.accel out present = some o)
    (hf : o.flushed = some f) :
    ∃ m, (w.surfaces i).backingMemory = some m ∧ w.Reads i f m := by
  obtain ⟨r, kind, -, -, hvalid, -, -, rfl⟩ := Surface.surfaceFlush_flushed hflush hf
  obtain ⟨m, hm⟩ := Option.isSome_iff_exists.mp (Surface.isBackingValid_iff.mp hvalid)
  refine ⟨m, hm, ?_⟩
  cases kind with
  | gfb =>
      rw [Surface.flushed]
      rw [Surface.backingMemory] at hm
      split at hm
      · rename_i hself
        cases hm
        rw [h.md_eq_none hself, if_pos hself]
        exact .copied
      · obtain ⟨md, hmd, rfl⟩ := Option.map_eq_some_iff.mp hm
        rw [hmd]
        exact .copied
  | _ => exact h.transfer_reads _ _ hm

end FlushInv

/-- Surface `i` still has what a write lock has handed out: the client's own memory, or the
memory of the backing. -/
def Keeps (w : World) (i : ℕ) (client : Bool) (pin : Pin) : Prop :=
  if client then pin = .client (w.surfaces i).clientBacking.addr
  else (w.surfaces i).backingMemory = some pin.memory

/-- What is still there depends on the client's memory and on that of the backing. -/
theorem Keeps.congr {w w' : World} {i : ℕ} {client : Bool} {pin : Pin} (h : w.Keeps i client pin)
    (hclient : client = true →
      (w'.surfaces i).clientBacking.addr = (w.surfaces i).clientBacking.addr)
    (hmemory : client = false →
      (w'.surfaces i).backingMemory = (w.surfaces i).backingMemory) : w'.Keeps i client pin := by
  rw [Keeps] at h ⊢
  cases client with
  | true =>
      rw [if_pos rfl, hclient rfl]
      exact h
  | false =>
      rw [if_neg Bool.false_ne_true, hmemory rfl]
      exact h

/-- An action that does not take it away leaves it there. -/
theorem Keeps.step {w w' : World} {act : Action} {i : ℕ} {client : Bool} {pin : Pin}
    (h : w.Keeps i client pin) (hkeeps : w.replaces i client act = false)
    (hstep : w.step act = some w') : w'.Keeps i client pin := by
  have hframe : w'.surfaces i = w.surfaces i → w'.Keeps i client pin := fun heq =>
    h.congr (fun _ => by rw [heq]) fun _ => by rw [heq]
  obtain ⟨out, hmoved⟩ := step_moved hstep
  cases hmoved with
  | @called _ j op o x hcalled happly =>
      by_cases hj : j = i
      · subst hj
        rw [replaces, hcalled] at hkeeps
        dsimp only at hkeeps
        rw [beq_self_eq_true, Bool.true_and] at hkeeps
        have hsame : (w.afterCall j o).surfaces j = o.surface := Function.update_self ..
        refine h.congr (fun hclient => ?_) fun hmemory => ?_
        · change ((w.afterCall j o).surfaces j).clientBacking.addr = _
          rw [hsame]
          exact Surface.keeps_clientMemory happly (hclient ▸ hkeeps)
        · change ((w.afterCall j o).surfaces j).backingMemory = _
          rw [hsame]
          exact Surface.keeps_memory happly (hmemory ▸ hkeeps)
      · exact hframe (Function.update_of_ne (Ne.symm hj) _ _)
  | @started j screenInfo env o hstarted haddr hstart =>
      by_cases hj : j = i
      · subst hj
        obtain ⟨-, hquiet⟩ := Surface.start_tested hstart
        obtain ⟨⟨b, t⟩, hstart3D, heq⟩ := Option.map_eq_some_iff.mp hstart
        cases heq
        have hsame : Function.update w.surfaces j t j = t := Function.update_self ..
        refine h.congr (fun _ => ?_) fun _ => ?_
        · change (Function.update w.surfaces j t j).clientBacking.addr = _
          rw [hsame, Surface.start3D_client hstart3D]
        · change (Function.update w.surfaces j t j).backingMemory = _
          rw [hsame, Surface.backingMemory, hquiet.backing]
          rfl
      · exact hframe (Function.update_of_ne (Ne.symm hj) _ _)
  | wrote hwrite => exact hframe rfl
  | stayed x hcalled => exact hframe rfl

end World

/-- **A flush** reads the memory whose address the last write lock has handed out: the backing,
if it is not exchanged in between, or the client's own memory, if the client keeps it and the
backing wraps it. -/
theorem flush_reads_locked {z alloc : VMsvga2Allocator} {e : AccelSetup}
    (hsetup : setupAllocator z e.vram = (.success, alloc)) {as : List Action}
    {w w₁ w₂ w₃ : World} (h : Run World.step Always (.start (.start e alloc)) as w) {i : ℕ}
    {infoOk : Bool} {env : BackingEnv} {o : Outcome}
    (hlock : w.result (.client i (.writeLock infoOk env)) = .ok w₁ .success (some o))
    (htrick : (w.surfaces i).locksTrick = false) {bs : List Action}
    (hbetween : Run World.step
      (fun v act => v.replaces i (w.surfaces i).isClientBackingValid act = false) w₁ bs w₂)
    (hwrapped : (w.surfaces i).isClientBackingValid = true →
      (w₂.surfaces i).backing.vtb.gartPtr = 1)
    {out present : IOReturn} {o' : Outcome} {f : Flushed}
    (hflush : w₂.result (.client i (.flush out present)) = .ok w₃ .success (some o'))
    (hf : o'.flushed = some f) :
    ∃ pin, o.address .write = some (o.surface.lockAddress .write pin) ∧
      w₂.Reads i f pin.memory := by
  have hinv : w.FlushInv e.maxGmrIds :=
    h.invariant (I := World.FlushInv e.maxGmrIds) (fun w act w' hw _ hstep => hw.step hstep)
      (.start hsetup)
  have hinv₁ : w₁.FlushInv e.maxGmrIds := by
    have hstep : w.step (.client i (.writeLock infoOk env)) = some w₁ := by
      rw [World.step, hlock]
    exact hinv.step hstep
  obtain ⟨happly, hok, hsurface⟩ := World.result_client hlock
  obtain ⟨pin, haddress, hpin⟩ :=
    Surface.writeLock_hands (hinv.maps.mapped i) htrick happly hok
  have hkeeps : w₁.Keeps i (w.surfaces i).isClientBackingValid pin := by
    rw [World.Keeps, hsurface]
    split
    · rename_i hclient
      rw [if_pos hclient] at hpin
      rw [hpin.2]
      exact hpin.1
    · rename_i hclient
      rw [if_neg hclient] at hpin
      exact hpin
  have hboth : w₂.FlushInv e.maxGmrIds ∧ w₂.Keeps i (w.surfaces i).isClientBackingValid pin := by
    refine hbetween.invariant
      (I := fun v => v.FlushInv e.maxGmrIds ∧ v.Keeps i (w.surfaces i).isClientBackingValid pin)
      ?_ ⟨hinv₁, hkeeps⟩
    rintro v act v' ⟨hv, hkept⟩ hact hstep
    exact ⟨hv.step hstep, hkept.step hact hstep⟩
  obtain ⟨hinv₂, hkept⟩ := hboth
  have hmemory : (w₂.surfaces i).backingMemory = some pin.memory := by
    rw [World.Keeps] at hkept
    split at hkept
    · rename_i hclient
      rw [if_pos hclient] at hpin
      have haddr : (w₂.surfaces i).clientBacking.addr = (w.surfaces i).clientBacking.addr :=
        Pin.client.inj (hkept.symm.trans hpin.1)
      rw [hkept]
      refine (hinv₂.wrapped i).memory (hwrapped hclient) ?_
      rw [haddr]
      simpa [Surface.isClientBackingValid] using hclient
    · exact hkept
  obtain ⟨m, hm, hreads⟩ := hinv₂.flush_reads (World.result_client hflush).1 hf
  obtain rfl := Option.some.inj (hm.symm.trans hmemory)
  exact ⟨pin, haddress, hreads⟩

/-- A window of 16 by 16 pixels in the client's memory at this address, if it is not null. -/
def windowShape (backing : ℕ) : Surface.ShapeArgs where
  options := 4
  framebufferIndex := 0
  backing := backing
  rowbytes := 64
  backingLength := 1024
  rgn := some ⟨⟨0, 0, 16, 16⟩, [⟨0, 0, 16, 16⟩]⟩
  rgnSize := 20
  stored := true

/-- A window. -/
def windowSession (backing : ℕ) : List Action :=
  lockSession.take 2 ++ [.client 0 (.setShape (windowShape backing))]

/-- A context takes the surface, locks it and unlocks it. -/
def contextVisit : List Action :=
  [.context 0 (.setSurface true 7 true false false false (some 0) ⟨true, true, false, .success⟩),
    .context 0 (.lockMemory true willing none),
    .context 0 .unlockMemory]

def drawLock : Action := .client 0 (.writeLock true willing)

def drawFlush : Action := .client 0 (.flush .success .success)

/-- The flush reads the client's own memory, which a context has had wrapped before. -/
theorem flush_reads_locked_session : ∃ w w₁ w₂ w₃ o o' f pin,
    Run World.step Always smallWorld (windowSession 0x50000 ++ contextVisit) w ∧
      w.result drawLock = .ok w₁ .success (some o) ∧
      Run World.step Always w₁ [.client 0 .writeUnlock] w₂ ∧
      w₂.result drawFlush = .ok w₃ .success (some o') ∧ o'.flushed = some f ∧
      o.address .write = some (o.surface.lockAddress .write pin) ∧
      w₂.Reads 0 f pin.memory := by
  have heval : (((windowSession 0x50000 ++ contextVisit).foldlM World.step smallWorld).bind
      fun w => (w.result drawLock).success.bind fun r =>
        ([.client 0 .writeUnlock].foldlM (guarded World.step fun v act =>
            v.replaces 0 true act = false) r.1).bind fun w₂ =>
          (w₂.result drawFlush).success.bind fun r' => r'.2.flushed.map fun _ =>
            ([(w.surfaces 0).isClientBackingValid, (w.surfaces 0).locksTrick],
              (w₂.surfaces 0).backing.vtb.gartPtr)) = some ([true, false], 1) := by
    decide +kernel
  obtain ⟨w, hfold, heval⟩ := Option.bind_eq_some_iff.mp heval
  obtain ⟨⟨w₁, o⟩, hsuccess, heval⟩ := Option.bind_eq_some_iff.mp heval
  obtain ⟨w₂, hfold', heval⟩ := Option.bind_eq_some_iff.mp heval
  obtain ⟨⟨w₃, o'⟩, hsuccess', heval⟩ := Option.bind_eq_some_iff.mp heval
  obtain ⟨f, hf, heval⟩ := Option.map_eq_some_iff.mp heval
  simp only [Prod.mk.injEq, List.cons.injEq, and_true] at heval
  obtain ⟨⟨hclient, htrick⟩, hmark⟩ := heval
  have hlock := Result.success_eq hsuccess
  have hflush := Result.success_eq hsuccess'
  have hrun := run_of_guarded hfold'
  obtain ⟨pin, haddress, hreads⟩ := flush_reads_locked smallAccel_setup (run_of_foldlM hfold)
    hlock htrick (hclient ▸ hrun) (fun _ => hmark) hflush hf
  exact ⟨w, w₁, w₂, w₃, o, o', f, pin, run_of_foldlM hfold, hlock,
    hrun.mono fun _ _ _ => trivial, hflush, hf, haddress, hreads⟩

/-- A window is drawn and flushed, and goes over to the client's own memory. -/
def movedSession : List Action :=
  windowSession 0 ++ [drawLock, .client 0 .writeUnlock, drawFlush,
    .client 0 (.setShape (windowShape 0x50000))]

/-- The flush reads the old block of VRAM, and not the client's memory whose address the write
lock has handed out. -/
theorem flush_reads_older : ∃ w w₁ w₂ w₃ o o' f,
    Run World.step Always smallWorld movedSession w ∧
      w.result drawLock = .ok w₁ .success (some o) ∧
      Run World.step Always w₁ [.client 0 .writeUnlock] w₂ ∧
      w₂.result drawFlush = .ok w₃ .success (some o') ∧ o'.flushed = some f ∧
      o.surface.pin .write = some (.client 0x50000) ∧ o.address .write = some 0x50000 ∧
      w₂.Reads 0 f (.vram 0x100000) ∧ ¬ w₂.Reads 0 f (clientMemory 0x50000) := by
  have heval : ((movedSession.foldlM World.step smallWorld).bind fun w =>
      (w.result drawLock).success.bind fun r =>
        ([.client 0 .writeUnlock].foldlM World.step r.1).bind fun w₂ =>
          (w₂.result drawFlush).success.bind fun r' => r'.2.flushed.map fun f =>
            ((r.2.surface.clientBacking.addr, r.2.address .write, f),
              (w₂.accel.vram.live 0x100000).isSome, w₂.accel.vram.alloc.poolStart,
              (w₂.surfaces 0).scale.byteOffset)) =
      some ((0x50000, some 0x50000, .dma ⟨gmrVram, 0, 64, 4, [⟨0, 0, 16, 16⟩]⟩),
        true, 0x100000, 0) := by
    decide +kernel
  obtain ⟨w, hfold, heval⟩ := Option.bind_eq_some_iff.mp heval
  obtain ⟨⟨w₁, o⟩, hsuccess, heval⟩ := Option.bind_eq_some_iff.mp heval
  obtain ⟨w₂, hfold', heval⟩ := Option.bind_eq_some_iff.mp heval
  obtain ⟨⟨w₃, o'⟩, hsuccess', heval⟩ := Option.bind_eq_some_iff.mp heval
  obtain ⟨f, hf, heval⟩ := Option.map_eq_some_iff.mp heval
  simp only [Prod.mk.injEq] at heval
  obtain ⟨⟨hclient, haddress, rfl⟩, hlive, hstart, hbyte⟩ := heval
  refine ⟨w, w₁, w₂, w₃, o, o', _, run_of_foldlM hfold, Result.success_eq hsuccess,
    run_of_foldlM hfold', Result.success_eq hsuccess', hf, ?_, haddress, ?_, ?_⟩
  · simp [Surface.pin, Surface.isClientBackingValid, hclient, Lock.second]
  · refine .vram rfl hlive ?_
    rw [hstart, hbyte]
    rfl
  · intro hreads
    obtain ⟨p, hp⟩ := hreads.block rfl
    cases hp

end DockerMacos
