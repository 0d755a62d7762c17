import DockerMacos.GmrBackings
import DockerMacos.VideoStreams
import DockerMacos.VramBackings

/-!
# The Memory of an Overlay

The registers of an overlay name memory: a GMR, or the whole of VRAM, with an offset and a
size. They are written when the overlay is switched on and not again, while the memory of the
surface can be exchanged by any lock. This module says when the two stay together.

## Registers and memory

`Named` compares the registers with the backing: the data lie between its start and its end,
which in a GMR is counted from the start of the region. `Backs` says in addition that the memory
is live: the block of VRAM is the surface's, or the device knows the region.

## What loses an overlay

A surface loses its overlay when it is given a video format while the overlay is on, when it
needs other memory under it, or when the overlay is switched on for more memory than there is
(`losesOverlay`). Everything else, by any client, keeps it.

## Main results

* `ReadsInv.change`: a call keeps the overlays on the memory of their surfaces, unless it
  exchanges the memory under an overlay or switches one on that reaches beyond it.
* `overlays_read_backing`: so it is in every run of such calls.
-/

namespace DockerMacos

namespace Surface

variable {a b : Accel} {s t : Surface} {env : BackingEnv}

/-! ### The labels of a backing -/

/-- A page has bytes. -/
theorem pageSize_pos : 0 < pageSize := by decide

/-- A backing in VRAM has the id of VRAM, and one with a descriptor starts in its first page. -/
structure Labelled (s : Surface) : Prop where
  vram : s.backing.self ≠ 0 → s.backing.vtb.gmrId = gmrVram
  near : s.backing.vtb.md.isSome = true → s.backing.offset < pageSize

/-- Memory that is wrapped, or was not, has no VRAM. -/
theorem prepareBacking_labelled (a : Accel) (env : BackingEnv) (md : MemoryDescriptor)
    (gartPtr : ℕ) (hself : s.backing.self = 0) (hoffset : s.backing.offset < pageSize) :
    (s.prepareBacking a env md gartPtr).2.2.Labelled := by
  rw [prepareBacking]
  split
  · exact ⟨fun hne => absurd hself hne, fun _ => hoffset⟩
  · refine ⟨fun hne => absurd hself hne, ?_⟩
    rintro ⟨⟩

/-- A client's memory starts within a page, wherever it lies. -/
theorem wrapClient_labelled (a : Accel) (env : BackingEnv) (hself : s.backing.self = 0) :
    (s.wrapClient a env).2.2.Labelled := by
  rw [wrapClient]
  dsimp only
  split
  · exact prepareBacking_labelled _ _ _ _ hself (Nat.mod_lt _ pageSize_pos)
  · exact ⟨fun hne => absurd hself hne, fun _ => Nat.mod_lt _ pageSize_pos⟩

/-- The backing keeps its label or is wrapped anew. -/
theorem wrapClientBacking_labelled (a : Accel) (env : BackingEnv) (h : s.Labelled) :
    (s.wrapClientBacking a env).2.2.Labelled := by
  rw [wrapClientBacking]
  split
  · exact wrapClient_labelled _ _ rfl
  · split
    · exact h
    · exact wrapClient_labelled _ _ rfl
  · rename_i hclass
    refine wrapClient_labelled _ _ ?_
    by_contra hself
    rw [classifyBacking, if_pos hself] at hclass
    cases hclass

/-- A new backing has a block of VRAM with the id of VRAM, or is wrapped. -/
theorem allocNew_labelled {ok : Bool} (hmd : s.backing.vtb.md = none)
    (h : s.allocNew a env = some (ok, b, t)) : t.Labelled := by
  rw [allocNew] at h
  split at h
  · cases h
  dsimp only at h
  split at h
  · rename_i hnull
    have hlabelled : ∀ (u : Surface) (c : Accel), u.backing.self = 0 → u.backing.vtb.md = none →
        (u.allocGMRBacking c env).2.2.Labelled := by
      intro u c hself hnone
      rw [allocGMRBacking]
      split
      · exact prepareBacking_labelled _ _ _ _ hself pageSize_pos
      · refine ⟨fun hne => absurd hself hne, fun hsome => ?_⟩
        rw [hnone] at hsome
        cases hsome
    have hgmr := hlabelled { s with backing := { s.backing with
      size := s.scale.byteSize
      self := (a.vramRealloc s.backing.self s.scale.byteSize env.vramFails).2 } }
      (a.vramRealloc s.backing.self s.scale.byteSize env.vramFails).1 hnull hmd
    rw [Option.some.injEq] at h
    rw [h] at hgmr
    exact hgmr
  · cases h
    refine ⟨fun _ => rfl, fun hsome => ?_⟩
    rw [show s.backing.vtb.md = none from hmd] at hsome
    cases hsome

/-- `allocBacking` labels what it obtains. -/
theorem allocBacking_labelled {ok : Bool} (h : s.Labelled)
    (halloc : s.allocBacking a env = some (ok, b, t)) : t.Labelled := by
  rw [allocBacking] at halloc
  split at halloc
  · have hwrap := wrapClientBacking_labelled a env h
    rw [Option.some.injEq] at halloc
    rw [halloc] at hwrap
    exact hwrap
  split at halloc
  · split at halloc
    · cases halloc
      exact h
    · exact allocNew_labelled rfl halloc
  · exact allocNew_labelled rfl halloc
  · rename_i hclass
    exact allocNew_labelled (md_of_classify_none hclass) halloc

end Surface

/-- Every action keeps the labels. -/
theorem Surface.Labelled.action {w w' : World} {act : Action}
    (h : ∀ i, (w.surfaces i).Labelled) (hstep : w.step act = some w') :
    ∀ i, (w'.surfaces i).Labelled := by
  have hupdate : ∀ {i : ℕ} {s : Surface}, s.Labelled →
      ∀ j, (Function.update w.surfaces i s j).Labelled := by
    intro i s hs j
    by_cases hji : j = i
    · rw [hji, Function.update_self]
      exact hs
    · rw [Function.update_of_ne hji]
      exact h j
  have hself : ∀ {i : ℕ} {s : Surface},
      (∀ j, (Function.update w.surfaces i s j).Labelled) → s.Labelled := by
    intro i s hs
    have := hs i
    rwa [Function.update_self] at this
  refine World.memory_rule (J := fun _ surfaces => ∀ j, (surfaces j).Labelled) hstep h ?_ ?_ ?_ ?_
    fun _ => h
  · intro i a b s t hs hsteady
    refine hupdate ⟨?_, ?_⟩
    · rw [hsteady.self, hsteady.gmrId]
      exact (hself hs).vram
    · rw [hsteady.md, hsteady.offset]
      exact (hself hs).near
  · intro i op u env ok b t _ _ _ hu halloc
    exact hupdate (Surface.allocBacking_labelled (hself hu) halloc)
  · intro i a s _
    refine hupdate ⟨fun hne => absurd rfl hne, ?_⟩
    rintro ⟨⟩
  · intro i a s screenInfo hs _
    exact hupdate ⟨(hself hs).vram, (hself hs).near⟩

/-! ### The registers -/

/-- The registers name the memory of the backing: the data lie between its start and its end,
which in a GMR is counted from the start of the region. -/
structure Backing.Named (b : Backing) (unit : SVGAOverlayUnit) : Prop where
  valid : b.self ≠ 0 ∨ b.vtb.md.isSome = true
  gmrId : unit.dataGMRId = b.vtb.gmrId
  first : b.offset ≤ unit.dataOffset
  past : unit.dataOffset + unit.size ≤ (if b.self ≠ 0 then b.offset else 0) + b.size

/-- Only what an overlay shows and where may differ. -/
structure SVGAOverlayUnit.SameData (u v : SVGAOverlayUnit) : Prop where
  dataOffset : v.dataOffset = u.dataOffset
  size : v.size = u.size
  dataGMRId : v.dataGMRId = u.dataGMRId

/-- An overlay has its own data. -/
theorem SVGAOverlayUnit.SameData.refl (u : SVGAOverlayUnit) : u.SameData u := ⟨rfl, rfl, rfl⟩

/-- Whether the registers name the memory is about the data and about where the memory is. -/
theorem Backing.Named.congr {b c : Backing} {u v : SVGAOverlayUnit} (h : b.Named u)
    (hdata : u.SameData v) (hself : c.self = b.self) (hoffset : c.offset = b.offset)
    (hsize : c.size = b.size) (hmd : c.vtb.md = b.vtb.md) (hid : c.vtb.gmrId = b.vtb.gmrId) :
    c.Named v := by
  refine ⟨?_, ?_, ?_, ?_⟩
  · rw [hself, hmd]
    exact h.valid
  · rw [hdata.dataGMRId, hid]
    exact h.gmrId
  · rw [hoffset, hdata.dataOffset]
    exact h.first
  · rw [hself, hoffset, hsize, hdata.dataOffset, hdata.size]
    exact h.past

/-- **The invariant**: the registers of every overlay name the memory of its surface. -/
def ReadsInv (a : Accel) (surfaces : ℕ → Surface) : Prop :=
  ∀ i id, (surfaces i).stream = some id → (surfaces i).backing.Named (a.overlays id)

/-- `allocBacking` has nothing to do. -/
def Surface.settled (s : Surface) : Bool :=
  if s.clientBacking.addr ≠ 0 then s.classifyBacking = .client && s.backing.vtb.gartPtr = 1
  else s.classifyBacking = .kernel && !s.hasSourceGrown

/-- The overlay would reach beyond the backing. -/
def Surface.reachesBeyond (s : Surface) : Bool :=
  s.backing.size < (if s.backing.self ≠ 0 then 0 else s.backing.offset) +
    toU32 s.scale.sourceH.toInt * s.scale.rowBytes % 2 ^ 32

/-- Allocating a stream id writes no register. -/
theorem Accel.allocStreamID_overlays {a b : Accel} {id : ℕ} (h : a.allocStreamID = (id, b)) :
    b.overlays = a.overlays := by
  rw [allocStreamID] at h
  split at h
  · cases h
    rfl
  · cases h
    rfl

namespace Surface

/-- A settled surface keeps its backing. -/
theorem allocBacking_settled {s : Surface} (h : s.settled = true) (a : Accel) (env : BackingEnv) :
    s.allocBacking a env = some (true, a, s) := by
  rw [settled] at h
  rw [allocBacking]
  split at h
  · rename_i hclient
    rw [Bool.and_eq_true, decide_eq_true_eq, decide_eq_true_eq] at h
    rw [if_pos hclient, wrapClientBacking, h.1]
    dsimp only
    rw [if_pos h.2]
  · rename_i hclient
    rw [Bool.and_eq_true, decide_eq_true_eq] at h
    rw [if_neg hclient, h.1]
    dsimp only
    rw [if_pos h.2]

/-- To switch off the video leaves what the registers name. -/
theorem surfaceVideoOff_data {a b : Accel} {s t : Surface}
    (h : s.surfaceVideoOff a = some (b, t)) (id : ℕ) :
    (a.overlays id).SameData (b.overlays id) := by
  rw [surfaceVideoOff] at h
  split at h
  · cases h
    exact .refl _
  split at h
  · cases h
    have hfree : ∀ c : Accel, (c.freeStreamID s.video.streamId).overlays = c.overlays := by
      intro c
      rw [Accel.freeStreamID]
      split <;> rfl
    rw [hfree, Accel.videoDisable]
    by_cases hid : id = s.video.streamId
    · subst hid
      simp only [Function.update_self]
      exact ⟨rfl, rfl, rfl⟩
    · simp only [Function.update_of_ne hid]
      exact .refl _
  · cases h

/-- So does a new shape. -/
theorem videoReshape_data {a b : Accel} {s t : Surface} (h : s.videoReshape a = some (b, t))
    (id : ℕ) : (a.overlays id).SameData (b.overlays id) := by
  rw [videoReshape] at h
  split at h
  · cases h
    exact .refl _
  split at h
  · cases h
    exact .refl _
  rename_i r _
  dsimp only at h
  split at h
  · cases h
    rw [Accel.videoSetDest]
    by_cases hid : id = (s.setVideoDest r).video.streamId
    · subst hid
      simp only [Function.update_self]
      exact ⟨rfl, rfl, rfl⟩
    · simp only [Function.update_of_ne hid]
      exact .refl _
  · cases h

/-- A new shape keeps the stream id. -/
theorem videoReshape_stream {a b : Accel} {s t : Surface} (h : s.videoReshape a = some (b, t)) :
    t.stream = s.stream := by
  rw [videoReshape] at h
  split at h
  · cases h
    rfl
  split at h
  · cases h
    rfl
  rename_i r _
  dsimp only at h
  split at h
  · cases h
    simp only [stream, setVideoDest]
    split <;> rfl
  · cases h

end Surface

namespace ReadsInv

variable {a b : Accel} {surfaces : ℕ → Surface} {i : ℕ} {s t : Surface}

/-- One surface is replaced, and the other overlays keep their data. -/
theorem replace (h : ReadsInv a (Function.update surfaces i s))
    (hothers : ∀ j id, j ≠ i → (surfaces j).stream = some id →
      (a.overlays id).SameData (b.overlays id))
    (hself : ∀ id, t.stream = some id → t.backing.Named (b.overlays id)) :
    ReadsInv b (Function.update surfaces i t) := by
  intro j id hj
  by_cases hji : j = i
  · subst hji
    rw [Function.update_self] at hj ⊢
    exact hself id hj
  · have hnamed := h j id
    rw [Function.update_of_ne hji] at hj hnamed ⊢
    exact (hnamed hj).congr (hothers j id hji hj) rfl rfl rfl rfl rfl

/-- The backing stays, and the overlays keep their data. -/
theorem kept (h : ReadsInv a (Function.update surfaces i s))
    (hdata : ∀ id, (a.overlays id).SameData (b.overlays id)) (hstream : t.stream = s.stream)
    (hself : t.backing.self = s.backing.self) (hoffset : t.backing.offset = s.backing.offset)
    (hsize : t.backing.size = s.backing.size) (hmd : t.backing.vtb.md = s.backing.vtb.md)
    (hid : t.backing.vtb.gmrId = s.backing.vtb.gmrId) :
    ReadsInv b (Function.update surfaces i t) := by
  refine h.replace (fun _ id _ _ => hdata id) ?_
  intro id ht
  have hnamed := h i id
  rw [Function.update_self] at hnamed
  exact (hnamed (hstream ▸ ht)).congr (hdata id) hself hoffset hsize hmd hid

/-- A surface without an overlay may change as it likes. -/
theorem hidden (h : ReadsInv a (Function.update surfaces i s))
    (hdata : ∀ id, (a.overlays id).SameData (b.overlays id)) (hstream : t.stream = none) :
    ReadsInv b (Function.update surfaces i t) := by
  refine h.replace (fun _ id _ _ => hdata id) ?_
  intro id ht
  rw [hstream] at ht
  cases ht

/-- A call that leaves the memory and the overlay keeps the invariant. -/
theorem quiet (h : ReadsInv a (Function.update surfaces i s)) (hquiet : s.Quiet t) :
    ReadsInv a (Function.update surfaces i t) := by
  refine h.kept (fun _ => .refl _) ?_ ?_ ?_ ?_ ?_ ?_
  · rw [Surface.stream, Surface.stream, hquiet.video]
  all_goals rw [hquiet.backing]

/-- The mark of the transfer buffer does not matter. -/
theorem marked (h : ReadsInv a (Function.update surfaces i s)) {g : ℕ}
    (hquiet : (s.withMark g).Quiet t) : ReadsInv a (Function.update surfaces i t) := by
  refine h.kept (fun _ => .refl _) ?_ ?_ ?_ ?_ ?_ ?_
  · rw [Surface.stream, Surface.stream, hquiet.video]
    rfl
  all_goals
    rw [hquiet.backing]
    rfl

/-- The stream of another surface is marked, and so another one than a free stream. -/
theorem other_stream_ne (hstreams : StreamInv a (Function.update surfaces i s)) {j id r : ℕ}
    (hji : j ≠ i) (hj : (surfaces j).stream = some id) (hclear : a.streamIdMask r = false) :
    id ≠ r := by
  rintro rfl
  have hmem : id ∈ a.markedStreams := by
    refine hstreams.held.mem (k := j) ?_
    rw [Function.comp_apply, Function.update_of_ne hji, hj]
  rw [Accel.markedStreams, Set.mem_ofPred_eq, hclear] at hmem
  cases hmem

/-- An overlay that is switched on reads the backing, if it does not reach beyond it. -/
theorem named_of_flush {id : ℕ} {r : IOAccelDeviceRegion} {u : Surface}
    (hu : u = { s with video := { s.video with streamId := id } }.setVideoRegs.setVideoDest r)
    (hvalid : s.isBackingValid = true) (hoffset : s.backing.offset < 2 ^ 32)
    (hreach : s.reachesBeyond = false) :
    u.backing.Named { u.video.unit with enabled := true } := by
  have hdata : u.backing = s.backing ∧
      u.video.unit.dataOffset = s.backing.offset % 2 ^ 32 ∧
      u.video.unit.size = toU32 s.scale.sourceH.toInt * s.scale.rowBytes % 2 ^ 32 ∧
      u.video.unit.dataGMRId = s.backing.vtb.gmrId := by
    rw [hu]
    simp only [Surface.setVideoDest]
    split <;> exact ⟨rfl, rfl, rfl, rfl⟩
  obtain ⟨hbacking, hfirst, hsize, hid⟩ := hdata
  simp only [Surface.reachesBeyond, decide_eq_false_iff_not, not_lt] at hreach
  rw [hbacking]
  refine ⟨?_, hid, ?_, ?_⟩
  · simpa only [Surface.isBackingValid, Bool.or_eq_true, decide_eq_true_eq] using hvalid
  · change s.backing.offset ≤ u.video.unit.dataOffset
    rw [hfirst, Nat.mod_eq_of_lt hoffset]
  · change u.video.unit.dataOffset + u.video.unit.size ≤ _
    rw [hfirst, hsize, Nat.mod_eq_of_lt hoffset]
    split at hreach
    · rename_i hself
      rw [if_pos hself]
      omega
    · rename_i hself
      rw [if_neg hself]
      omega

/-- A flush that switches an overlay on. -/
theorem flushed {a₁ : Accel} {id : ℕ} {r : IOAccelDeviceRegion} {u : Surface}
    (h : ReadsInv a (Function.update surfaces i s))
    (hstreams : StreamInv a (Function.update surfaces i s)) (hflush : s.flushesVideo = true)
    (hoffset : s.isBackingValid = true → s.backing.offset < 2 ^ 32)
    (halloc : a.allocStreamID = (id, a₁)) (hid : isIdValid id = true)
    (hu : u = { s with video := { s.video with streamId := id } }.setVideoRegs.setVideoDest r)
    (hreach : s.reachesBeyond = false) :
    ReadsInv (a₁.videoSetAll id { u.video.unit with enabled := true }) (Function.update surfaces i
      { u with video := { u.video with unit := { u.video.unit with enabled := true } } }) := by
  rcases a.allocStreamID_cases with hnone | ⟨r', -, hclear, hsome⟩
  · obtain ⟨rfl, -⟩ := Prod.mk.inj (halloc.symm.trans hnone)
    cases hid
  · obtain ⟨rfl, rfl⟩ := Prod.mk.inj (halloc.symm.trans hsome)
    have hvalid : s.isBackingValid = true := by
      simp only [Surface.flushesVideo, Bool.and_eq_true] at hflush
      exact hflush.1.1.1.2
    refine h.replace ?_ ?_
    · intro j id' hji hj
      rw [Accel.videoSetAll]
      simp only [Function.update_of_ne (other_stream_ne hstreams hji hj hclear)]
      exact .refl _
    · intro id' hid'
      have hstream : u.video.streamId = id := by
        rw [hu]
        rfl
      obtain ⟨-, rfl⟩ := Surface.stream_eq_some.mp hid'
      rw [Accel.videoSetAll]
      simp only [hstream, Function.update_self]
      exact named_of_flush hu hvalid (hoffset hvalid) hreach

/-- A surface that is closed has no overlay. -/
theorem closed {a₁ : Accel} {u s₁ : Surface} (h : ReadsInv a (Function.update surfaces i s))
    (hstreams : StreamInv a (Function.update surfaces i s)) (hquiet : s.Quiet u)
    (hoff : s.provider = true ∧ u.surfaceVideoOff a = some (a₁, s₁) ∨
      s.provider = false ∧ a₁ = a ∧ s₁ = u)
    (hquiet' : Surface.Quiet { (s₁.releaseBacking a₁).2 with provider := false } t) :
    ReadsInv (s₁.releaseBacking a₁).1 (Function.update surfaces i t) := by
  have hreleased := Surface.releaseBacking_kept s₁ a₁
  have hstreams' := hstreams.quiet hquiet
  have hend : s₁.video.unit.enabled = false ∧
      ∀ id, (a.overlays id).SameData (a₁.overlays id) := by
    rcases hoff with ⟨-, hoff⟩ | ⟨hprovider, rfl, rfl⟩
    · exact ⟨(hstreams'.videoOff hoff).2, Surface.surfaceVideoOff_data hoff⟩
    · refine ⟨?_, fun _ => .refl _⟩
      have hopen := hstreams'.open_video i
      rw [Function.update_self] at hopen
      cases henabled : s₁.video.unit.enabled with
      | false => rfl
      | true =>
          have := (hopen henabled).2
          rw [hquiet.provider, hprovider] at this
          cases this
  refine h.hidden (fun id => ?_) ?_
  · rw [hreleased.1.overlays]
    exact hend.2 id
  · rw [Surface.stream_eq_none, hquiet'.video]
    exact hend.1

/-- **A call** keeps the overlays on the memory of their surfaces, if it gives no video format
to a surface with an overlay, needs no other memory for one, and switches none on that reaches
beyond the backing. -/
theorem change {op : SurfaceOp} (h : ReadsInv a (Function.update surfaces i s))
    (hstreams : StreamInv a (Function.update surfaces i s))
    (hoffset : s.isBackingValid = true → s.backing.offset < 2 ^ 32)
    (hchange : s.Change a op b t)
    (hmemory : ∀ env, s.memoryCall op = some env → s.video.unit.enabled = true →
      s.settled = true)
    (hflush : op = .flushVideo → s.flushesVideo = true →
      isIdValid a.allocStreamID.1 = true → s.reachesBeyond = false) :
    ReadsInv b (Function.update surfaces i t) := by
  cases hchange with
  | quiet hquiet => exact h.quiet hquiet
  | unmapped hmap =>
      obtain ⟨n, m₀, m₁, u, hb, ⟨r, w, c, k, rfl⟩, rfl⟩ := hmap
      exact h.kept (fun _ => .refl _) rfl rfl rfl rfl rfl rfl
  | @memory op env u s₁ t ok a₁ b hcall hlock halloc hmap =>
      obtain ⟨r, w, c, k, rfl⟩ := hlock
      cases henabled : s.video.unit.enabled with
      | true =>
          have hsettled : ({ s with
              lockedRead := r
              lockedWrite := w
              lockedContext := c
              skipWriteLockOnce := k } : Surface).settled = true := hmemory env hcall henabled
          rw [Surface.allocBacking_settled hsettled] at halloc
          cases halloc
          obtain ⟨n, m₀, m₁, u, rfl, ⟨r', w', c', k', rfl⟩, rfl⟩ := hmap
          exact h.kept (fun _ => .refl _) rfl rfl rfl rfl rfl rfl
      | false =>
          obtain ⟨hkept, backing, rfl⟩ := Surface.allocBacking_kept halloc
          obtain ⟨n, m₀, m₁, u, rfl, ⟨r', w', c', k', rfl⟩, rfl⟩ := hmap
          refine h.hidden (fun id => ?_) (Surface.stream_eq_none.mpr henabled)
          change (a.overlays id).SameData (a₁.overlays id)
          rw [hkept.overlays]
          exact .refl _
  | marked hg hquiet => exact h.marked hquiet
  | shaped hg hquiet hshape hquiet' =>
      have hu := h.marked hquiet
      obtain ⟨hkept, v, hv⟩ := Surface.videoReshape_kept hshape
      refine (hu.kept (Surface.videoReshape_data hshape) (Surface.videoReshape_stream hshape)
        ?_ ?_ ?_ ?_ ?_).quiet hquiet'
      all_goals rw [hv]
  | plain hoff hquiet htest =>
      obtain ⟨-, hdisabled⟩ := hstreams.videoOff hoff
      refine h.hidden (fun id => ?_) ?_
      · rw [(Accel.VideoKept.tested htest).overlays]
        exact Surface.surfaceVideoOff_data hoff id
      · rw [Surface.stream_eq_none, hquiet.video]
        exact hdisabled
  | video format hvmware hyuv hquiet =>
      refine h.hidden (fun _ => .refl _) ?_
      rw [Surface.stream_eq_none, hquiet.video]
  | streamless hflush' halloc hid hquiet =>
      have hdisabled : s.video.unit.enabled = false := by
        simp only [Surface.flushesVideo, Bool.and_eq_true, Bool.not_eq_true'] at hflush'
        exact hflush'.2
      refine h.hidden (fun id => ?_) ?_
      · rw [Accel.allocStreamID_overlays halloc]
        exact .refl _
      · rw [Surface.stream_eq_none, hquiet.video]
        exact hdisabled
  | flushed hflush' halloc hid hu =>
      refine h.flushed hstreams hflush' hoffset halloc hid hu (hflush rfl hflush' ?_)
      rw [halloc]
      exact hid
  | closed hquiet _ hoff hquiet' => exact h.closed hstreams hquiet hoff hquiet'

end ReadsInv

/-! ### Runs -/

/-- The call takes the memory from under an overlay, or switches one on that reaches beyond
it. -/
def Surface.losesOverlay (s : Surface) (a : Accel) (op : SurfaceOp) : Bool :=
  ((s.memoryCall op).isSome && s.video.unit.enabled && !s.settled) ||
    match op with
    | .flushVideo => s.flushesVideo && isIdValid a.allocStreamID.1 && s.reachesBeyond
    | _ => false

/-- A call that loses no overlay finds the memory it needs, where there is one. -/
theorem Surface.settled_of_keeps {s : Surface} {a : Accel} {op : SurfaceOp} {env : BackingEnv}
    (h : s.losesOverlay a op = false) (hmemory : s.memoryCall op = some env)
    (henabled : s.video.unit.enabled = true) : s.settled = true := by
  have hkeeps := (Bool.or_eq_false_iff.mp h).1
  rw [hmemory, henabled] at hkeeps
  simpa using hkeeps

/-- It switches an overlay on only inside the memory. -/
theorem Surface.within_of_keeps {s : Surface} {a : Accel}
    (h : s.losesOverlay a .flushVideo = false) (hflush : s.flushesVideo = true)
    (hid : isIdValid a.allocStreamID.1 = true) : s.reachesBeyond = false := by
  have hkeeps := (Bool.or_eq_false_iff.mp h).2
  dsimp only at hkeeps
  rw [hflush, hid] at hkeeps
  simpa using hkeeps

/-- A surface with an overlay is given a video format or needs other memory, or an overlay is
switched on that reaches beyond the memory. -/
def World.losesOverlay (w : World) (act : Action) : Bool :=
  w.resetsVideo act ||
    match w.called act with
    | some (i, op) => (w.surfaces i).losesOverlay w.accel op
    | none => false

/-- The registers name live memory: a part of the block of VRAM of the surface, or of the
region that its transfer buffer holds and the device knows. -/
inductive Surface.Backs (s : Surface) (a : Accel) (unit : SVGAOverlayUnit) : Prop
  | vram : s.backing.self ≠ 0 → a.vram.live s.backing.self = some s.backing.size →
      unit.dataGMRId = gmrVram → s.backing.self - a.vram.alloc.poolStart ≤ unit.dataOffset →
      unit.dataOffset + unit.size ≤
        s.backing.self - a.vram.alloc.poolStart + s.backing.size → Surface.Backs s a unit
  | region {md : MemoryDescriptor} : s.backing.vtb.region = some unit.dataGMRId →
      s.backing.vtb.md = some md → a.gmrs unit.dataGMRId = some md →
      s.backing.offset ≤ unit.dataOffset → unit.dataOffset + unit.size ≤ s.backing.size →
      Surface.Backs s a unit

/-- Every overlay that is on reads the memory of the surface that owns its stream. -/
def OverlaysReadBacking (w : World) : Prop :=
  ∀ id, (w.accel.overlays id).enabled = true →
    ∃ i, (w.surfaces i).video.unit.enabled = true ∧ (w.surfaces i).video.streamId = id ∧
      (w.surfaces i).Backs w.accel (w.accel.overlays id)

/-- What holds of the surfaces and the accelerator. -/
structure VideoInv (maxGmrIds : ℕ) (w : World) : Prop where
  streams : StreamInv w.accel w.surfaces
  gmrs : GmrBackings maxGmrIds w.accel w.surfaces
  vram : VramBackings False w.accel w.surfaces
  labels : ∀ i, (w.surfaces i).Labelled
  reads : ReadsInv w.accel w.surfaces

namespace VideoInv

variable {maxGmrIds : ℕ} {w w' : World} {act : Action}

/-- A backing starts in the first 4 GiB. -/
theorem offset_lt (h : VideoInv maxGmrIds w) (i : ℕ)
    (hvalid : (w.surfaces i).isBackingValid = true) :
    (w.surfaces i).backing.offset < 2 ^ 32 := by
  by_cases hself : (w.surfaces i).backing.self = 0
  · have hmd : (w.surfaces i).backing.vtb.md.isSome = true := by
      simpa [Surface.isBackingValid, hself] using hvalid
    have hnear := (h.labels i).near hmd
    simp only [pageSize] at hnear
    omega
  · obtain ⟨lists, hinv⟩ := h.vram.inv
    have hend := hinv.live_end (h.vram.sized i hself)
    rw [h.vram.placed i hself]
    omega

/-- What the registers name is live. -/
theorem backs (h : VideoInv maxGmrIds w) {i id : ℕ}
    (hstream : (w.surfaces i).stream = some id) :
    (w.surfaces i).Backs w.accel (w.accel.overlays id) := by
  have hnamed := h.reads i id hstream
  have hpast := hnamed.past
  by_cases hself : (w.surfaces i).backing.self = 0
  · have hmd := hnamed.valid.resolve_left (not_not.mpr hself)
    obtain ⟨md, hsome⟩ := Option.isSome_iff_exists.mp hmd
    have hregion : ∃ r, (w.surfaces i).backing.vtb.region = some r := by
      cases hregion : (w.surfaces i).backing.vtb.region with
      | some r => exact ⟨r, rfl⟩
      | none =>
          rw [h.gmrs.inv.idle i hregion] at hsome
          cases hsome
    obtain ⟨r, hregion⟩ := hregion
    obtain ⟨md', hmd', hgmr⟩ := h.gmrs.inv.region i r hregion
    obtain rfl := Option.some.inj (hsome.symm.trans hmd')
    have hr : (w.accel.overlays id).dataGMRId = r :=
      hnamed.gmrId.trans (VendorTransferBuffer.region_eq_some.mp hregion).2
    rw [hself, if_neg (not_not.mpr rfl), Nat.zero_add] at hpast
    exact .region (hr ▸ hregion) hsome (hr ▸ hgmr) hnamed.first hpast
  · have hplaced := h.vram.placed i hself
    rw [if_pos hself, hplaced] at hpast
    exact .vram hself (h.vram.sized i hself)
      (hnamed.gmrId.trans ((h.labels i).vram hself)) (hplaced ▸ hnamed.first) hpast

/-- The invariant gives live memory under every overlay that is shown. -/
theorem overlaysReadBacking (h : VideoInv maxGmrIds w) : OverlaysReadBacking w := by
  intro id hid
  rw [h.streams.shown id] at hid
  obtain ⟨i, hi⟩ := h.streams.noLeak id hid
  obtain ⟨henabled, hstream⟩ := Surface.stream_eq_some.mp hi
  exact ⟨i, henabled, hstream, h.backs hi⟩

/-- **An action** that loses no overlay keeps all this. -/
theorem step (h : VideoInv maxGmrIds w) (hact : w.losesOverlay act = false)
    (hstep : w.step act = some w') : VideoInv maxGmrIds w' := by
  rw [World.losesOverlay, Bool.or_eq_false_iff] at hact
  obtain ⟨hreset, hlose⟩ := hact
  refine ⟨h.streams.step hreset hstep, h.gmrs.action hstep, h.vram.action False.elim hstep,
    Surface.Labelled.action h.labels hstep, ?_⟩
  have hself : ∀ i, Function.update w.surfaces i (w.surfaces i) = w.surfaces := fun i =>
    Function.update_eq_self i w.surfaces
  obtain ⟨out, hmoved⟩ := World.step_moved hstep
  cases hmoved with
  | @called _ i op o x hcalled happly =>
      rw [hcalled] at hlose
      refine ReadsInv.change (s := w.surfaces i) (by rw [hself]; exact h.reads)
        (by rw [hself]; exact h.streams) (h.offset_lt i) (Surface.apply_change happly) ?_ ?_
      · intro env hmemory henabled
        exact Surface.settled_of_keeps hlose hmemory henabled
      · rintro rfl hflush hid
        exact Surface.within_of_keeps hlose hflush hid
  | @started i screenInfo env o hstarted haddr hstart =>
      obtain ⟨htest, hquiet⟩ := Surface.start_tested hstart
      have hreads : ReadsInv w.accel (Function.update w.surfaces i (w.surfaces i)) := by
        rw [hself]
        exact h.reads
      change ReadsInv o.accel (Function.update w.surfaces i o.surface)
      refine hreads.kept (fun id => ?_) ?_ ?_ ?_ ?_ ?_ ?_
      · rw [(Accel.VideoKept.tested htest).overlays]
        exact .refl _
      · rw [Surface.stream, Surface.stream, hquiet.video]
      all_goals rw [hquiet.backing]
  | wrote hwrite => exact h.reads
  | stayed x hcalled => exact h.reads

/-- It holds at the start, where no overlay is shown. -/
theorem start {z alloc : VMsvga2Allocator} {e : AccelSetup}
    (hsetup : setupAllocator z e.vram = (.success, alloc)) :
    VideoInv e.maxGmrIds (.start (.start e alloc)) := by
  refine ⟨.start e alloc, .start e alloc fun _ => rfl, .start False hsetup, ?_, ?_⟩
  · intro i
    refine ⟨fun hne => absurd rfl hne, ?_⟩
    rintro ⟨⟩
  · rintro i id ⟨⟩

end VideoInv

/-- **An overlay** reads live memory of the surface that owns its stream, in every run of
actions that lose no overlay. -/
theorem overlays_read_backing {z alloc : VMsvga2Allocator} {e : AccelSetup}
    (hsetup : setupAllocator z e.vram = (.success, alloc)) {as : List Action} {w : World}
    (h : Run World.step (fun w act => w.losesOverlay act = false) (.start (.start e alloc)) as
      w) : OverlaysReadBacking w := by
  have hinv : VideoInv e.maxGmrIds w := by
    refine h.invariant (I := VideoInv e.maxGmrIds) ?_ (.start hsetup)
    intro w act w' hw hact hstep
    exact hw.step hact hstep
  exact hinv.overlaysReadBacking

/-- While video is shown, the overlay reads the block of VRAM of the surface. -/
theorem overlays_read_backing_session : ∃ w, Run World.step
      (fun w act => w.losesOverlay act = false) smallWorld videoSession w ∧
    (w.accel.overlays 0).enabled = true ∧ OverlaysReadBacking w := by
  have heval : (videoSession.foldlM (guarded World.step fun w act => w.losesOverlay act = false)
      smallWorld).map (fun w => (w.accel.overlays 0).enabled) = some true := by decide +kernel
  obtain ⟨w, hfold, hshown⟩ := Option.map_eq_some_iff.mp heval
  exact ⟨w, run_of_guarded hfold, hshown,
    overlays_read_backing smallAccel_setup (run_of_guarded hfold)⟩

/-- The client gives the surface memory of its own, and the context locks it again. -/
def ownMemory : List Action :=
  videoSession ++
    [.client 0 (.setShape
      ⟨0, 0, 0x500000, 32, 4096, some ⟨⟨0, 0, 16, 16⟩, [⟨0, 0, 16, 16⟩]⟩, 20, true⟩),
      .context 0 (.lockMemory true willing none)]

/-- The lock frees the block of VRAM, and the overlay still reads it. -/
theorem overlay_reads_freed : ∃ w, Run World.step Always smallWorld ownMemory w ∧
    (w.accel.overlays 0).enabled = true ∧ (w.accel.overlays 0).dataGMRId = gmrVram ∧
    w.accel.vram.live 0x100000 = none ∧ ¬ OverlaysReadBacking w := by
  have heval : (ownMemory.foldlM (guarded World.step fun w act => w.confined 0 act = true)
      smallWorld).map (fun w => ((w.accel.overlays 0).enabled, (w.accel.overlays 0).dataGMRId,
        w.accel.vram.live 0x100000, (w.surfaces 0).backing.self)) =
      some (true, gmrVram, none, 0) := by decide +kernel
  obtain ⟨w, hfold, hend⟩ := Option.map_eq_some_iff.mp heval
  obtain ⟨hshown, hend⟩ := Prod.mk.inj hend
  obtain ⟨hid, hend⟩ := Prod.mk.inj hend
  obtain ⟨hlive, hself⟩ := Prod.mk.inj hend
  have hrun := run_of_guarded hfold
  refine ⟨w, hrun.mono fun _ _ _ => trivial, hshown, hid, hlive, fun h => ?_⟩
  obtain ⟨i, henabled, -, hbacks⟩ := h 0 hshown
  have hi : i = 0 := by
    by_contra hi
    rw [World.run_frame hrun (fun _ _ h => h) hi] at henabled
    cases henabled
  subst hi
  cases hbacks with
  | vram hne => exact hne hself
  | region hregion =>
      rw [hid] at hregion
      cases (VendorTransferBuffer.region_eq_some.mp hregion).1

end DockerMacos
