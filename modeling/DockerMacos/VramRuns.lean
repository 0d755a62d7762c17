import DockerMacos.FreeBlocks
import DockerMacos.GmrBackings
import DockerMacos.VideoStreams
import DockerMacos.VramBackings

/-!
# VRAM under the System

Surfaces and contexts use the allocator of VRAM through `VRAMMalloc`, `VRAMRealloc` and
`VRAMFree` only, and they pass it no pointer but null and those that are live: what any number
of clients do to VRAM is a run of the allocator. So what holds along the runs of the allocator
holds along those of the system, and when all surfaces are closed the accelerator is as it was
before the first was opened.

## The simulation

An action of the system comes to several calls of the allocator, to one or to none. `VramRun`
relates two accelerators by such a run, and is shown for the functions of a surface first. The
writes of clients to their blocks are steps of the allocator's runs as well.

## Closed surfaces

With all surfaces closed nothing is live and no region is defined, unless one of two things has
happened on the way: an exchange of a block that failed, or a video format for a surface with an
overlay. That the free blocks are then those of the start is known from the allocator alone.

## Main results

* `vram_run`: every run of the system is, for VRAM, a run of the allocator.
* `left_as_found`: closed surfaces leave nothing behind.
-/

namespace DockerMacos

open VMsvga2Allocator

/-! ### The calls of the driver as steps -/

/-- `VRAMMalloc` is a step of the allocator. -/
theorem allocStep_vramMalloc (r : AllocRun) (bytes : ℕ) :
    allocStep r (.malloc bytes) = some (r.vramMalloc bytes).1 := rfl

/-- So is `VRAMFree` of what is live, or of null. -/
theorem allocStep_vramFree {r : AllocRun} {ptr : ℕ}
    (hptr : ptr = 0 ∨ (r.live ptr).isSome = true) :
    allocStep r (.free ptr) = some (r.vramFree ptr) := by
  rw [allocStep, if_pos hptr]
  rfl

/-- So is `VRAMRealloc` of what is live, or of null. -/
theorem allocStep_vramRealloc {r : AllocRun} {ptr : ℕ} (bytes : ℕ)
    (hptr : ptr = 0 ∨ (r.live ptr).isSome = true) :
    allocStep r (.realloc ptr bytes) = some (r.vramRealloc ptr bytes).1 := by
  rw [allocStep, if_pos hptr]
  rfl

/-- The VRAM of one accelerator comes from that of the other by a run of the allocator. -/
def Accel.VramRun (a b : Accel) : Prop := ∃ bs, Run allocStep NoRelease a.vram bs b.vram

namespace Accel.VramRun

variable {a b c : Accel}

/-- Where the VRAM is the same, the run is empty. -/
theorem of_eq (h : b.vram = a.vram) : a.VramRun b := ⟨[], h ▸ Run.nil _⟩

/-- Two runs, one after the other. -/
theorem trans (h : a.VramRun b) (h' : b.VramRun c) : a.VramRun c := by
  obtain ⟨bs, hb⟩ := h
  obtain ⟨cs, hc⟩ := h'
  exact ⟨bs ++ cs, hb.append hc⟩

/-- One step that is no release is a run. -/
theorem of_step {act : AllocAction} (h : allocStep a.vram act = some b.vram)
    (hact : ∀ first past, act ≠ .release first past) : a.VramRun b :=
  ⟨[act], Run.single hact h⟩

/-- `VRAMMalloc`, which does nothing where there is no allocator. -/
theorem vramMalloc (a : Accel) (bytes : ℕ) (fails : Bool) :
    a.VramRun (a.vramMalloc bytes fails).1 := by
  rw [Accel.vramMalloc]
  split
  · exact of_eq rfl
  · exact of_step (allocStep_vramMalloc a.vram bytes) (by rintro _ _ ⟨⟩)

/-- `VRAMRealloc` of what is live. -/
theorem vramRealloc {ptr : ℕ} (hptr : ptr = 0 ∨ (a.vram.live ptr).isSome = true) (bytes : ℕ)
    (fails : Bool) : a.VramRun (a.vramRealloc ptr bytes fails).1 := by
  rw [Accel.vramRealloc]
  split
  · exact of_eq rfl
  · exact of_step (allocStep_vramRealloc bytes hptr) (by rintro _ _ ⟨⟩)

/-- `VRAMFree` of what is live. -/
theorem vramFree {ptr : ℕ} (hptr : ptr = 0 ∨ (a.vram.live ptr).isSome = true) :
    a.VramRun (a.vramFree ptr) := of_step (allocStep_vramFree hptr) (by rintro _ _ ⟨⟩)

end Accel.VramRun

/-! ### The functions of a surface -/

namespace Surface

variable {a b : Accel} {s t : Surface}

open Accel (VramRun)

/-- The pointer to the block of a surface is null or live. -/
def SelfLive (s : Surface) (a : Accel) : Prop :=
  s.backing.self = 0 ∨ (a.vram.live s.backing.self).isSome = true

/-- A surface that gives up its backing frees its block. -/
theorem releaseBacking_vramRun (h : s.SelfLive a) : a.VramRun (s.releaseBacking a).1 := by
  have hvram := s.backing.vtb.complete_vram s.provider a
  have hcomplete : a.VramRun (s.backing.vtb.complete s.provider a).1 := .of_eq hvram
  rw [releaseBacking]
  dsimp only
  split
  · refine hcomplete.trans (.vramFree ?_)
    rw [hvram]
    exact h
  · exact hcomplete

/-- `wrapClientBacking` releases the block at most. -/
theorem wrapClientBacking_vramRun (h : s.SelfLive a) (env : BackingEnv) :
    a.VramRun (s.wrapClientBacking a env).2.1 := by
  have hwrap : ∀ (u : Surface) (c : Accel), c.VramRun (u.wrapClient c env).2.1 := fun u c =>
    .of_eq (u.wrapClient_block c env).vram
  rw [wrapClientBacking]
  split
  · exact (releaseBacking_vramRun h).trans (hwrap _ _)
  · split
    · exact .of_eq rfl
    · exact (releaseBacking_vramRun h).trans (hwrap _ _)
  · exact hwrap s a

/-- `allocBacking` behind its `switch` reallocates the block. -/
theorem allocNew_vramRun (h : s.SelfLive a) {env : BackingEnv} {ok : Bool}
    (halloc : s.allocNew a env = some (ok, b, t)) : a.VramRun b := by
  rw [allocNew] at halloc
  split at halloc
  · cases halloc
  have hre := Accel.VramRun.vramRealloc h s.scale.byteSize env.vramFails
  dsimp only at halloc
  split at halloc
  · rw [Option.some.injEq] at halloc
    have hgmr := (allocGMRBacking_block { s with backing := { s.backing with
      size := s.scale.byteSize
      self := (a.vramRealloc s.backing.self s.scale.byteSize env.vramFails).2 } }
      (a.vramRealloc s.backing.self s.scale.byteSize env.vramFails).1 env).vram
    rw [halloc] at hgmr
    exact hre.trans (.of_eq hgmr)
  · cases halloc
    exact hre

/-- **`allocBacking`** exchanges the block, or releases it and takes another one. -/
theorem allocBacking_vramRun (h : s.SelfLive a) {env : BackingEnv} {ok : Bool}
    (halloc : s.allocBacking a env = some (ok, b, t)) : a.VramRun b := by
  rw [allocBacking] at halloc
  split at halloc
  · have hwrap := wrapClientBacking_vramRun h env
    rw [Option.some.injEq] at halloc
    rw [halloc] at hwrap
    exact hwrap
  split at halloc
  · split at halloc
    · cases halloc
      exact .of_eq rfl
    · have hvram := s.backing.vtb.complete_vram s.provider a
      refine .trans (.of_eq hvram) (allocNew_vramRun ?_ halloc)
      rw [SelfLive, hvram]
      exact h
  · exact (releaseBacking_vramRun h).trans (allocNew_vramRun (.inl rfl) halloc)
  · exact allocNew_vramRun h halloc

/-- The test of `detectBlitBug` takes a page and frees it. -/
theorem detectBlitBug_vramRun (h : ∃ lists, AllocInv a.vram lists) (env : Start3DEnv) :
    a.VramRun (detectBlitBug a env).2 := by
  obtain ⟨lists, hinv⟩ := h
  have hmalloc := Accel.VramRun.vramMalloc a pageSize env.vramFails
  rw [detectBlitBug]
  split
  · exact .of_eq rfl
  dsimp only
  split
  · exact hmalloc
  · rename_i hne
    refine hmalloc.trans (.vramFree (.inr ?_))
    rw [Accel.vramMalloc] at hne ⊢
    split
    · rename_i hfails
      rw [if_pos hfails] at hne
      exact absurd rfl hne
    · rename_i hfails
      rw [if_neg hfails] at hne
      obtain ⟨-, -, hre⟩ := hinv.vramMalloc pageSize
      rcases hre with ⟨hnull, -⟩ | ⟨-, -, hlive⟩
      · exact absurd hnull hne
      · change ((a.vram.vramMalloc pageSize).1.live (a.vram.vramMalloc pageSize).2).isSome = true
        rw [hlive, Function.update_self]
        rfl

end Surface

/-! ### Runs -/

namespace VramBackings

variable {tight : Prop} {a b : Accel} {surfaces : ℕ → Surface} {i : ℕ} {s t : Surface}

/-- The invariant stays while the memory of a surface does. -/
theorem steady (h : VramBackings tight a (Function.update surfaces i s))
    (hsteady : Surface.Steady a s b t) : VramBackings tight b (Function.update surfaces i t) := by
  have hscreen := h.screen i
  rw [Function.update_self] at hscreen
  have hvram : (∃ lists, AllocInv b.vram lists) ∧ SamePool a.vram b.vram ∧
      b.vram.live = a.vram.live := by
    rcases hsteady.vram with hsame | ⟨env, htest⟩
    · rw [hsame]
      exact ⟨h.inv, ⟨rfl, rfl⟩, rfl⟩
    · rw [htest]
      exact Surface.detectBlitBug_vram h.inv env
  refine h.kept hvram.1 hvram.2.1 hvram.2.2 hsteady.self
    (fun _ => ⟨hsteady.size, hsteady.offset, hsteady.provider⟩) ?_
  rw [hsteady.provider, hsteady.screenInfo]
  exact hscreen

/-- **A step** of the system is a run of the allocator. -/
theorem vramRun {w w' : World} {act : Action} (h : VramBackings False w.accel w.surfaces)
    (hstep : w.step act = some w') : w.accel.VramRun w'.accel := by
  refine (World.memory_rule (J := fun a surfaces =>
    VramBackings False a surfaces ∧ w.accel.VramRun a) hstep ⟨h, .of_eq rfl⟩ ?_ ?_ ?_ ?_ ?_).2
  · rintro i a b s t ⟨hs, hrun⟩ hsteady
    refine ⟨hs.steady hsteady, hrun.trans ?_⟩
    rcases hsteady.vram with hsame | ⟨env, htest⟩
    · exact .of_eq hsame
    · exact (Surface.detectBlitBug_vramRun hs.inv env).trans (.of_eq htest)
  · rintro i op u env ok b t - - - ⟨hu, hrun⟩ halloc
    exact ⟨hu.allocBacking False.elim halloc,
      hrun.trans (Surface.allocBacking_vramRun hu.self_live halloc)⟩
  · rintro i a s ⟨hs, hrun⟩
    have hreleased := hs.releaseBacking
    refine ⟨hreleased.kept hreleased.inv ⟨rfl, rfl⟩ rfl rfl (fun hself => absurd rfl hself) ?_,
      hrun.trans (Surface.releaseBacking_vramRun hs.self_live)⟩
    rintro ⟨⟩
  · rintro i a s screenInfo ⟨hs, hrun⟩ haddr
    refine ⟨hs.kept hs.inv ⟨rfl, rfl⟩ rfl rfl (fun hself => ⟨rfl, rfl, ?_⟩) fun _ => haddr, hrun⟩
    exact (hs.self_update hself).2.2.symm
  · intro ptr k v vram hwrite
    have hstep' : w.step (.write ptr k v) =
        some { w with accel := { w.accel with vram := vram } } := by
      rw [World.step, World.result]
      dsimp only
      rw [hwrite]
    exact ⟨h.action False.elim hstep', .of_step hwrite (by rintro _ _ ⟨⟩)⟩

end VramBackings

/-- A run of the system is a run of the allocator. -/
theorem World.vramRun {z alloc : VMsvga2Allocator} {e : AccelSetup}
    (hsetup : setupAllocator z e.vram = (.success, alloc)) {C : World → Action → Prop}
    {as : List Action} {w : World} (h : Run World.step C (.start (.start e alloc)) as w) :
    ∃ bs, Run allocStep NoRelease (setupStart e.vram alloc) bs w.accel.vram := by
  refine h.simulate (f := fun w => w.accel.vram)
    (I := fun w => VramBackings False w.accel w.surfaces) ?_ ?_ (.start False hsetup)
  · intro w act w' hw _ hstep
    exact hw.action False.elim hstep
  · intro w act w' hw _ hstep
    exact hw.vramRun hstep

/-- **VRAM under the system**: whatever any number of clients and contexts do, their use of VRAM
is a run of the allocator after the set-up, in which no pointer is freed or exchanged that is
not live. The allocator stays sound: `Check` would succeed in every state. -/
theorem vram_run {z alloc : VMsvga2Allocator} {e : AccelSetup}
    (hsetup : setupAllocator z e.vram = (.success, alloc)) {as : List Action} {w : World}
    (h : Run World.step Always (.start (.start e alloc)) as w) :
    (∃ bs, Run allocStep NoRelease (setupStart e.vram alloc) bs w.accel.vram) ∧
      w.accel.vram.alloc.check.1 = .success := by
  obtain ⟨bs, hrun⟩ := World.vramRun hsetup h
  obtain ⟨lists, hinv, hco⟩ := setupAllocator_inv hsetup
  obtain ⟨lists', hinv', -⟩ := hinv.after_setup hco hrun
  exact ⟨⟨bs, hrun⟩, by rw [hinv'.check_eq]⟩

/-- A surface that is locked and closed. -/
def closingSession : List Action := lockSession ++ [.client 0 .close]

/-- It comes to calls of the allocator. -/
theorem vram_run_session : ∃ w, Run World.step Always smallWorld closingSession w ∧
    w.accel.vram.live 0x100000 = none ∧
    (∃ bs, Run allocStep NoRelease (setupStart smallAccel.vram
      (setupAllocator freshAllocator twoPages).2) bs w.accel.vram) ∧
    w.accel.vram.alloc.check.1 = .success := by
  have heval : (closingSession.foldlM World.step smallWorld).map
      (fun w => (w.accel.vram.live 0x100000).isSome) = some false := by decide +kernel
  obtain ⟨w, hfold, hlive⟩ := Option.map_eq_some_iff.mp heval
  exact ⟨w, run_of_foldlM hfold, Option.not_isSome_iff_eq_none.mp (by rw [hlive]; decide),
    vram_run smallAccel_setup (run_of_foldlM hfold)⟩

/-! ### All surfaces closed -/

/-- No exchange of a block fails, and no surface with an overlay is given a video format. -/
def World.Lossless (w : World) (act : Action) : Prop :=
  w.losesBlock act = false ∧ w.resetsVideo act = false

instance (w : World) (act : Action) : Decidable (w.Lossless act) :=
  inferInstanceAs (Decidable (_ ∧ _))

/-- The accelerator is as `start` left it: the free blocks of VRAM are the same, no region is
defined, no memory is prepared, and no stream is in use. The free lists may have the blocks in
another order, so that of `Malloc` only the return code is said to be the same. -/
structure LeftAsFound (e : AccelSetup) (alloc : VMsvga2Allocator) (a : Accel) : Prop where
  freeBlocks : ∃ lists lists', BuddyInvariant (setupStart e.vram alloc) lists ∧
    BuddyInvariant a.vram lists' ∧ freeSet lists' = freeSet lists
  live : ∀ p, a.vram.live p = none
  available : a.vram.alloc.available = alloc.available
  malloc : ∀ bytes, (a.vram.alloc.malloc bytes).1 = (alloc.malloc bytes).1
  gmrIds : ∀ id < Accel.numGmrIds, a.gmrIdMask id = (Accel.start e alloc).gmrIdMask id
  regions : ∀ id, a.gmrs id = none
  prepared : ∀ k, a.prepared k = false
  streams : ∀ id, a.streamIdMask id = false ∧ (a.overlays id).enabled = false

/-- Without live pointers the allocator has the free blocks of the set-up. -/
theorem AllocInv.freeBlocks_of_none {r t : AllocRun} {lists : ℕ → List ℕ} (h : AllocInv r lists)
    (hco : Coalesced (numSizes - 1) (freeSet lists)) (hr : ∀ p, r.live p = none)
    {as : List AllocAction} (hrun : Run allocStep NoRelease r as t) (ht : ∀ p, t.live p = none) :
    ∃ lists', BuddyInvariant t lists' ∧ freeSet lists' = freeSet lists ∧
      t.alloc.available = r.alloc.available ∧
      ∀ bytes, (t.alloc.malloc bytes).1 = (r.alloc.malloc bytes).1 := by
  obtain ⟨lists', h', hco', hpool, -, hrel⟩ := h.after_setup hco hrun
  have hblocks : ∀ {u : AllocRun}, (∀ p, u.live p = none) →
      liveBlocks u.alloc.poolStart u.live = ∅ := by
    intro u hu
    refine Set.eq_empty_of_forall_notMem ?_
    rintro b ⟨bytes, hbytes, -⟩
    rw [hu] at hbytes
    cases hbytes
  have hfree : entirelyFree t = entirelyFree r := by
    simp only [entirelyFree, EntirelyFree, hpool, hrel, hblocks hr, hblocks ht]
  have hset := h'.freeSet_eq hco' h hco hfree
  refine ⟨lists', h'.buddyInvariant, Set.ext hset, ?_, h'.malloc_code h hset⟩
  rw [available, available, h'.freeBytes_eq, h.freeBytes_eq, hfree]

/-- Closed surfaces hold no regions. -/
theorem GmrBackings.closed {e : AccelSetup} {a : Accel} {surfaces : ℕ → Surface}
    (h : GmrBackings e.maxGmrIds a surfaces) (alloc : VMsvga2Allocator)
    (hclosed : ∀ i, (surfaces i).provider = false) :
    (∀ id < Accel.numGmrIds, a.gmrIdMask id = (Accel.start e alloc).gmrIdMask id) ∧
      (∀ id, a.gmrs id = none) ∧ ∀ k, a.prepared k = false := by
  have hregion : ∀ i, (surfaces i).backing.vtb.region = none := by
    intro i
    cases hi : (surfaces i).backing.vtb.region with
    | none => rfl
    | some id =>
        have hopen := h.opened i id hi
        rw [hclosed i] at hopen
        cases hopen
  have hmarked := h.inv.noLeak.eq_empty hregion
  have hdefined := h.inv.defined.eq_empty hregion
  have hprepared := h.inv.prepared.eq_empty fun i =>
    VendorTransferBuffer.pinned_of_region_none (hregion i)
  refine ⟨fun id hid => ?_, fun id => ?_, fun k => ?_⟩
  · rcases Nat.lt_or_ge id e.maxGmrIds with hlt | hge
    · have hclear : a.gmrIdMask id = false := by
        refine Bool.eq_false_of_not_eq_true fun hmask => ?_
        have hmem : id ∈ a.markedIds e.maxGmrIds := ⟨hid, hlt, hmask⟩
        rw [hmarked] at hmem
        exact hmem
      rw [hclear, Accel.start]
      simp only [not_le.mpr hlt, decide_false, Bool.and_false]
    · rw [h.inv.reserved id hid hge, Accel.start]
      simp only [hid, hge, decide_true, Bool.and_self]
  · have hnone : id ∉ a.definedIds := hdefined ▸ Set.notMem_empty id
    rw [Accel.definedIds, Set.mem_ofPred_eq] at hnone
    simpa using hnone
  · have hnone : k ∉ a.preparedIds := hprepared ▸ Set.notMem_empty k
    rw [Accel.preparedIds, Set.mem_ofPred_eq] at hnone
    simpa using hnone

/-- **Nothing is left behind**: in every run without the two losses, once all surfaces are
closed the accelerator is as it was before the first one was opened, whatever the surfaces and
the contexts did and in whatever order they were closed. -/
theorem left_as_found {z alloc : VMsvga2Allocator} {e : AccelSetup}
    (hsetup : setupAllocator z e.vram = (.success, alloc)) {as : List Action} {w : World}
    (h : Run World.step World.Lossless (.start (.start e alloc)) as w)
    (hclosed : ∀ i, (w.surfaces i).provider = false) : LeftAsFound e alloc w.accel := by
  have hvram : VramBackings True w.accel w.surfaces :=
    h.invariant (I := fun w => VramBackings True w.accel w.surfaces)
      (fun _ _ _ hw hact hstep => hw.action (fun _ => hact.1) hstep) (.start True hsetup)
  have hgmr : GmrBackings e.maxGmrIds w.accel w.surfaces :=
    h.invariant (I := fun w => GmrBackings e.maxGmrIds w.accel w.surfaces)
      (fun _ _ _ hw _ hstep => hw.action hstep) (.start e alloc fun _ => rfl)
  have hstream : StreamInv w.accel w.surfaces :=
    h.invariant (I := fun w => StreamInv w.accel w.surfaces)
      (fun _ _ _ hw hact hstep => hw.step hact.2 hstep) (.start e alloc)
  obtain ⟨bs, hrun⟩ := World.vramRun hsetup h
  obtain ⟨lists, hinv, hco⟩ := setupAllocator_inv hsetup
  have hlive := hvram.blocksOwned.closed hclosed
  obtain ⟨lists', hbuddy, hfree, havail, hmalloc⟩ :=
    hinv.freeBlocks_of_none hco (fun _ => rfl) hrun hlive
  obtain ⟨hids, hregions, hprepared⟩ := hgmr.closed alloc hclosed
  exact ⟨⟨lists, lists', hinv.buddyInvariant, hbuddy, hfree⟩, hlive, havail, hmalloc, hids,
    hregions, hprepared, hstream.streamsOwned.closed hclosed⟩

/-- A surface that shows video and is closed. -/
def closedVideo : List Action := videoSession ++ [.client 0 .close]

/-- Neither its stream nor its block stay in use. -/
theorem left_as_found_video : ∃ w,
    Run World.step World.Lossless smallWorld closedVideo w ∧
      (∀ i, (w.surfaces i).provider = false) ∧
      LeftAsFound smallAccel (setupAllocator freshAllocator twoPages).2 w.accel := by
  have heval : (closedVideo.foldlM
      (guarded World.step fun w act => w.Lossless act ∧ w.confined 0 act = true) smallWorld).map
        (fun w : World => (w.surfaces 0).provider) = some false := by decide +kernel
  obtain ⟨w, hfold, hprovider⟩ := Option.map_eq_some_iff.mp heval
  have hrun := run_of_guarded hfold
  have hclosed : ∀ i, (w.surfaces i).provider = false := by
    intro i
    by_cases hi : i = 0
    · rw [hi]
      exact hprovider
    · rw [World.run_frame hrun (fun _ _ h => h.2) hi]
      rfl
  have hlossless := hrun.mono fun _ _ h => h.1
  exact ⟨w, hlossless, hclosed, left_as_found smallAccel_setup hlossless hclosed⟩

end DockerMacos
