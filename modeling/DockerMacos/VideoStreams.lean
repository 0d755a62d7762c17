import DockerMacos.Ownership
import DockerMacos.SurfaceActions

/-!
# Ownership of Video Streams

An overlay of the device is a video stream. A surface takes the id of a free one when its video
is first flushed, and gives it back in `surface_video_off`, which a change to a format without
video and a close go through. A change to a video format does not: it clears the flag of the
surface alone, and the id stays marked and the overlay on.

## Three places

Which streams are in use is recorded in the mask of the accelerator, in the surfaces, as an id and
a flag, and in the device, whose overlays are on or off. `StreamInv` says that the three agree; a
change of the video format under an overlay is what sets them apart (`resetsVideo`).

## Main definitions

* `Surface.stream`: the stream of a surface whose overlay is on.
* `StreamsOwned`: the stream ids belong to the surfaces with an overlay.

## Main results

* `StreamInv.change`: any other call keeps the ids with their surfaces.
* `stream_ids_owned`: so they stay in every run in which no surface with an overlay is given a
  video format.
-/

namespace DockerMacos

namespace Surface

/-- The stream of a surface whose overlay is on. -/
def stream (s : Surface) : Option ℕ :=
  if s.video.unit.enabled then some s.video.streamId else none

/-- A surface has the stream of its overlay, while that is enabled. -/
theorem stream_eq_some {s : Surface} {id : ℕ} :
    s.stream = some id ↔ s.video.unit.enabled = true ∧ s.video.streamId = id := by
  rw [stream]
  split
  · rename_i henabled
    constructor
    · rintro ⟨⟩
      exact ⟨henabled, rfl⟩
    · rintro ⟨-, rfl⟩
      rfl
  · rename_i henabled
    constructor
    · rintro ⟨⟩
    · rintro ⟨h, -⟩
      exact absurd h henabled

/-- Without an overlay it has none. -/
theorem stream_eq_none {s : Surface} : s.stream = none ↔ s.video.unit.enabled = false := by
  rw [stream]
  cases s.video.unit.enabled <;> simp

end Surface

/-- The ids that the accelerator has marked. -/
def Accel.markedStreams (a : Accel) : Set ℕ := {id | a.streamIdMask id = true}

/-- `AllocStreamID` gives an invalid id, or one that was not marked. -/
theorem Accel.allocStreamID_cases (a : Accel) :
    a.allocStreamID = (svgaIdInvalid, a) ∨
      ∃ r, r < 32 ∧ a.streamIdMask r = false ∧ a.allocStreamID =
        (r, { a with streamIdMask := Function.update a.streamIdMask r true }) := by
  rw [allocStreamID]
  cases hfind : findBit a.streamIdMask 0 32 with
  | none => exact .inl rfl
  | some r =>
      have hclear := List.find?_some hfind
      have hmem := List.mem_range'_1.mp (List.mem_of_find?_eq_some hfind)
      exact .inr ⟨r, by omega, by simpa using hclear, rfl⟩

/-! ### The invariant -/

/-- **The invariant**: the ids that are marked are those of the surfaces with an overlay, and
just their overlays are on. -/
structure StreamInv (a : Accel) (surfaces : ℕ → Surface) : Prop where
  held : Held a.markedStreams (Surface.stream ∘ surfaces)
  noLeak : NoLeak a.markedStreams (Surface.stream ∘ surfaces)
  lt : ∀ id ∈ a.markedStreams, id < 32
  shown : ∀ id, (a.overlays id).enabled = a.streamIdMask id
  open_video : ∀ i, (surfaces i).video.unit.enabled = true →
    (surfaces i).videoMode = true ∧ (surfaces i).provider = true

namespace StreamInv

variable {a b : Accel} {surfaces : ℕ → Surface} {i : ℕ} {s t : Surface}

/-- A surface changes, and its overlay does not. -/
theorem same (h : StreamInv a (Function.update surfaces i s))
    (hmask : b.streamIdMask = a.streamIdMask)
    (hshown : ∀ id, (b.overlays id).enabled = (a.overlays id).enabled)
    (hstream : t.stream = s.stream)
    (hopen : t.video.unit.enabled = true → t.videoMode = true ∧ t.provider = true) :
    StreamInv b (Function.update surfaces i t) := by
  have hmarked : b.markedStreams = a.markedStreams := by
    rw [Accel.markedStreams, hmask]
    rfl
  have howners : Surface.stream ∘ Function.update surfaces i t =
      Surface.stream ∘ Function.update surfaces i s := by
    rw [Function.comp_update, Function.comp_update, hstream]
  refine ⟨hmarked ▸ howners ▸ h.held, hmarked ▸ howners ▸ h.noLeak, hmarked ▸ h.lt, ?_, ?_⟩
  · intro id
    rw [hshown, hmask]
    exact h.shown id
  · intro j hj
    by_cases hji : j = i
    · subst hji
      rw [Function.update_self] at hj ⊢
      exact hopen hj
    · have := h.open_video j
      rw [Function.update_of_ne hji] at hj this ⊢
      exact this hj

/-- The memory of a surface and the accelerator's other parts do not matter. -/
theorem kept (h : StreamInv a (Function.update surfaces i s)) (hkept : a.VideoKept b)
    (hvideo : t.video = s.video) (hmode : t.videoMode = s.videoMode)
    (hprovider : t.provider = s.provider) : StreamInv b (Function.update surfaces i t) := by
  refine h.same hkept.streamIdMask (fun id => by rw [hkept.overlays]) ?_ ?_
  · rw [Surface.stream, Surface.stream, hvideo]
  · have hopen := h.open_video i
    rw [Function.update_self] at hopen
    rw [hvideo, hmode, hprovider]
    exact hopen

/-- A call that leaves the overlay keeps the invariant. -/
theorem quiet (h : StreamInv a (Function.update surfaces i s)) (hquiet : s.Quiet t) :
    StreamInv a (Function.update surfaces i t) :=
  h.kept (.refl a) hquiet.video hquiet.videoMode hquiet.provider

/-- `surface_video_off` gives the stream back. -/
theorem videoOff (h : StreamInv a (Function.update surfaces i s))
    (hoff : s.surfaceVideoOff a = some (b, t)) :
    StreamInv b (Function.update surfaces i t) ∧ t.video.unit.enabled = false := by
  have hopen := h.open_video i
  rw [Function.update_self] at hopen
  rw [Surface.surfaceVideoOff] at hoff
  split at hoff
  · -- there is no overlay
    rename_i hno
    cases hoff
    refine ⟨h, Bool.eq_false_of_not_eq_true fun henabled => ?_⟩
    rw [(hopen henabled).1, henabled] at hno
    cases hno
  · rename_i hyes
    split at hoff
    · cases hoff
      refine ⟨?_, rfl⟩
      rw [Bool.or_eq_true, not_or] at hyes
      have henabled : s.video.unit.enabled = true := by simpa using hyes.2
      have howner : (Surface.stream ∘ Function.update surfaces i s) i =
          some s.video.streamId := by
        rw [Function.comp_apply, Function.update_self]
        exact Surface.stream_eq_some.mpr ⟨henabled, rfl⟩
      have hmem := h.held.mem howner
      have hlt : ¬ s.video.streamId ≥ 32 := by
        have := h.lt _ hmem
        omega
      simp only [Accel.freeStreamID, if_neg hlt]
      set u : Surface := { s.overlayOff with
        video := { s.overlayOff.video with streamId := svgaIdInvalid } } with hu
      have hmarked : ({ a.videoDisable s.video.streamId with
          streamIdMask := Function.update (a.videoDisable s.video.streamId).streamIdMask
            s.video.streamId false } : Accel).markedStreams =
          a.markedStreams \ {s.video.streamId} := by
        ext id
        simp only [Accel.markedStreams, Set.mem_ofPred_eq, Set.mem_sdiff, Set.mem_singleton_iff]
        by_cases hid : id = s.video.streamId
        · simp only [hid, Function.update_self, Bool.false_eq_true, not_true, and_false]
        · simp only [ne_eq, hid, not_false_eq_true, Function.update_of_ne, and_true]
          rfl
      have howners : Surface.stream ∘ Function.update surfaces i u =
          Function.update (Surface.stream ∘ Function.update surfaces i s) i none := by
        rw [Function.comp_update, Function.comp_update, Function.update_idem]
        rfl
      refine ⟨?_, ?_, ?_, ?_, ?_⟩
      · rw [hmarked, howners]
        exact h.held.release howner
      · rw [hmarked, howners]
        exact h.noLeak.release howner
      · rw [hmarked]
        exact fun id hid => h.lt id hid.1
      · intro id
        simp only [Accel.videoDisable]
        by_cases hid : id = s.video.streamId
        · simp only [hid, Function.update_self]
        · simp only [ne_eq, hid, not_false_eq_true, Function.update_of_ne]
          exact h.shown id
      · intro j hj
        by_cases hji : j = i
        · rw [hji, Function.update_self] at hj
          cases hj
        · have := h.open_video j
          rw [Function.update_of_ne hji] at hj this ⊢
          exact this hj
    · cases hoff

/-- `surface_flush_video` takes a free stream and switches its overlay on. -/
theorem takes (h : StreamInv a (Function.update surfaces i s)) {id : ℕ}
    {unit : SVGAOverlayUnit} (hstream : s.stream = none) (hlt : id < 32)
    (hclear : a.streamIdMask id = false) (hunit : unit.enabled = true)
    (ht : t.stream = some id) (hopen : t.videoMode = true ∧ t.provider = true) :
    StreamInv ({ a with streamIdMask := Function.update a.streamIdMask id true }.videoSetAll id
      unit) (Function.update surfaces i t) := by
  have hnew : id ∉ a.markedStreams := fun hmem => by
    rw [Accel.markedStreams, Set.mem_ofPred_eq, hclear] at hmem
    cases hmem
  have hnone : (Surface.stream ∘ Function.update surfaces i s) i = none := by
    rw [Function.comp_apply, Function.update_self, hstream]
  have hmarked : ({ a with streamIdMask := Function.update a.streamIdMask id true }.videoSetAll
      id unit).markedStreams = insert id a.markedStreams := by
    ext r
    simp only [Accel.markedStreams, Accel.videoSetAll, Set.mem_ofPred_eq, Set.mem_insert_iff]
    by_cases hr : r = id
    · simp only [hr, Function.update_self, true_or]
    · simp only [ne_eq, hr, not_false_eq_true, Function.update_of_ne, false_or]
  have howners : Surface.stream ∘ Function.update surfaces i t =
      Function.update (Surface.stream ∘ Function.update surfaces i s) i (some id) := by
    rw [Function.comp_update, Function.comp_update, Function.update_idem, ht]
  refine ⟨?_, ?_, ?_, ?_, ?_⟩
  · rw [hmarked, howners]
    exact h.held.acquire hnew
  · rw [hmarked, howners]
    exact h.noLeak.acquire hnone
  · rw [hmarked]
    rintro r (rfl | hr)
    · exact hlt
    · exact h.lt r hr
  · intro r
    simp only [Accel.videoSetAll]
    by_cases hr : r = id
    · simp only [hr, Function.update_self, hunit]
    · simp only [ne_eq, hr, not_false_eq_true, Function.update_of_ne]
      exact h.shown r
  · intro j hj
    by_cases hji : j = i
    · rw [hji, Function.update_self]
      exact hopen
    · have := h.open_video j
      rw [Function.update_of_ne hji] at hj this ⊢
      exact this hj

/-- `videoReshape` moves an overlay at most. -/
theorem reshaped (h : StreamInv a (Function.update surfaces i s))
    (hshape : s.videoReshape a = some (b, t)) : StreamInv b (Function.update surfaces i t) := by
  have hopen := h.open_video i
  rw [Function.update_self] at hopen
  have hdest : ∀ r, (s.setVideoDest r).video.unit.enabled = s.video.unit.enabled := by
    intro r
    simp only [Surface.setVideoDest]
    split <;> rfl
  rw [Surface.videoReshape] at hshape
  split at hshape
  · cases hshape
    exact h
  split at hshape
  · cases hshape
    exact h
  rename_i r _
  dsimp only at hshape
  split at hshape
  · cases hshape
    refine h.same rfl ?_ ?_ ?_
    · intro id
      simp only [Accel.videoSetDest]
      by_cases hid : id = (s.setVideoDest r).video.streamId
      · simp only [hid, Function.update_self]
      · simp only [ne_eq, hid, not_false_eq_true, Function.update_of_ne]
    · rw [Surface.stream, Surface.stream, hdest]
      rfl
    · rw [hdest]
      exact hopen
  · cases hshape

/-- A surface without an overlay gives up its backing and its provider. -/
theorem released (h : StreamInv a (Function.update surfaces i s))
    (hdisabled : s.video.unit.enabled = false)
    (hend : Surface.Quiet { (s.releaseBacking a).2 with provider := false } t) :
    StreamInv (s.releaseBacking a).1 (Function.update surfaces i t) := by
  obtain ⟨hkept, hback⟩ := Surface.releaseBacking_kept s a
  refine h.same hkept.streamIdMask (fun id => by rw [hkept.overlays]) ?_ ?_
  · rw [Surface.stream, Surface.stream, hend.video]
    rfl
  · intro henabled
    rw [hend.video] at henabled
    exact absurd (hdisabled.symm.trans henabled) (by simp)

/-- **A call** keeps the invariant, unless it gives a video format to a surface whose overlay
is on. -/
theorem change {op : SurfaceOp} (h : StreamInv a (Function.update surfaces i s))
    (hchange : s.Change a op b t)
    (hop : ∀ vmware apple env, op = .contextSetSurface vmware apple env → vmware ≠ 0 →
      a.optionNoYuv = false → s.video.unit.enabled = false) :
    StreamInv b (Function.update surfaces i t) := by
  have hopen := h.open_video i
  rw [Function.update_self] at hopen
  cases hchange with
  | quiet hquiet => exact h.quiet hquiet
  | unmapped hmap =>
      obtain ⟨n, m₀, m₁, u, hb, ⟨r, w, c, k, rfl⟩, rfl⟩ := hmap
      exact h.kept (.refl a) rfl rfl rfl
  | memory hcall hlock halloc hmap =>
      obtain ⟨r, w, c, k, rfl⟩ := hlock
      obtain ⟨hkept, backing, rfl⟩ := Surface.allocBacking_kept halloc
      obtain ⟨n, m₀, m₁, u, rfl, ⟨r', w', c', k', rfl⟩, rfl⟩ := hmap
      exact h.kept (hkept.trans ⟨rfl, rfl, rfl⟩) rfl rfl rfl
  | marked _ hquiet => exact h.kept (.refl a) hquiet.video hquiet.videoMode hquiet.provider
  | shaped _ hquiet hshape hquiet' =>
      have hu := h.kept (.refl a) hquiet.video hquiet.videoMode hquiet.provider
      exact (hu.reshaped hshape).quiet hquiet'
  | plain hoff hquiet htest =>
      obtain ⟨hinv, hdisabled⟩ := h.videoOff hoff
      refine hinv.same (Accel.VideoKept.tested htest).streamIdMask
        (fun id => by rw [(Accel.VideoKept.tested htest).overlays]) ?_ ?_
      · rw [Surface.stream, Surface.stream, hquiet.video]
      · intro henabled
        rw [hquiet.video, hdisabled] at henabled
        cases henabled
  | video format hvmware hyuv hquiet =>
      have hdisabled := hop _ _ _ rfl hvmware hyuv
      refine h.same rfl (fun _ => rfl) ?_ ?_
      · rw [Surface.stream_eq_none.mpr hdisabled, Surface.stream_eq_none, hquiet.video]
      · intro henabled
        rw [hquiet.video] at henabled
        cases henabled
  | streamless hflush halloc hid hquiet =>
      have hdisabled : s.video.unit.enabled = false := by
        simp only [Surface.flushesVideo, Bool.and_eq_true, Bool.not_eq_true'] at hflush
        exact hflush.2
      rcases a.allocStreamID_cases with hnone | ⟨r, hr, -, hsome⟩
      · obtain ⟨rfl, rfl⟩ := Prod.mk.inj (halloc.symm.trans hnone)
        refine h.same rfl (fun _ => rfl) ?_ ?_
        · rw [Surface.stream_eq_none.mpr hdisabled, Surface.stream_eq_none, hquiet.video]
          exact hdisabled
        · intro henabled
          rw [hquiet.video] at henabled
          exact absurd henabled (by simp only [hdisabled, Bool.false_eq_true, not_false_eq_true])
      · obtain ⟨rfl, -⟩ := Prod.mk.inj (halloc.symm.trans hsome)
        simp only [isIdValid, decide_eq_false_iff_not] at hid
        omega
  | flushed hflush halloc hid hu =>
      simp only [Surface.flushesVideo, Bool.and_eq_true, Bool.not_eq_true'] at hflush
      obtain ⟨⟨⟨-, hmode⟩, hprovider⟩, hdisabled⟩ := hflush
      rcases a.allocStreamID_cases with hnone | ⟨r, hr, hclear, hsome⟩
      · obtain ⟨rfl, -⟩ := Prod.mk.inj (halloc.symm.trans hnone)
        cases hid
      · obtain ⟨rfl, rfl⟩ := Prod.mk.inj (halloc.symm.trans hsome)
        subst hu
        exact h.takes (Surface.stream_eq_none.mpr hdisabled) hr hclear rfl
          (Surface.stream_eq_some.mpr ⟨rfl, rfl⟩) ⟨hmode, hprovider⟩
  | closed hquiet _ hoff hquiet' =>
      have hu := h.quiet hquiet
      rcases hoff with ⟨-, hoff⟩ | ⟨hprovider, rfl, rfl⟩
      · obtain ⟨hinv, hdisabled⟩ := hu.videoOff hoff
        exact hinv.released hdisabled hquiet'
      · refine hu.released ?_ hquiet'
        rw [hquiet.video]
        cases henabled : s.video.unit.enabled with
        | false => rfl
        | true =>
            rw [(hopen henabled).2] at hprovider
            cases hprovider

end StreamInv

/-! ### Runs -/

/-- A surface whose overlay is on is given a video format. -/
def World.resetsVideo (w : World) (act : Action) : Bool :=
  match w.called act with
  | some (i, .contextSetSurface vmware _ _) =>
      vmware ≠ 0 && !w.accel.optionNoYuv && (w.surfaces i).video.unit.enabled
  | _ => false

/-- An action that gives no video format to a surface with an overlay keeps the invariant. -/
theorem StreamInv.step {w w' : World} {act : Action} (h : StreamInv w.accel w.surfaces)
    (hact : w.resetsVideo act = false) (hstep : w.step act = some w') :
    StreamInv w'.accel w'.surfaces := by
  obtain ⟨out, hmoved⟩ := World.step_moved hstep
  have hself : ∀ i, StreamInv w.accel (Function.update w.surfaces i (w.surfaces i)) := by
    intro i
    rw [Function.update_eq_self]
    exact h
  cases hmoved with
  | @called _ i op o x hcalled happly =>
      refine (hself i).change (Surface.apply_change happly) ?_
      rintro vmware apple env rfl hvmware hyuv
      rw [World.resetsVideo, hcalled] at hact
      simpa only [ne_eq, hvmware, not_false_eq_true, decide_true, hyuv, Bool.not_false,
        Bool.and_self, Bool.true_and] using hact
  | @started i screenInfo env o hstarted haddr hstart =>
      obtain ⟨htest, hquiet⟩ := Surface.start_tested hstart
      have hopen := h.open_video i
      change StreamInv o.accel (Function.update w.surfaces i o.surface)
      refine (hself i).same (Accel.VideoKept.tested htest).streamIdMask
        (fun id => by rw [(Accel.VideoKept.tested htest).overlays]) ?_ ?_
      · rw [Surface.stream, Surface.stream, hquiet.video]
      · intro henabled
        rw [hquiet.video] at henabled
        rw [hquiet.videoMode, hquiet.provider]
        exact ⟨(hopen henabled).1, rfl⟩
  | wrote hwrite => exact ⟨h.held, h.noLeak, h.lt, h.shown, h.open_video⟩
  | stayed x hcalled => exact h

/-- The stream ids belong to the surfaces with an overlay. -/
structure StreamsOwned (w : World) : Prop where
  /-- The ids that are marked are those of the surfaces whose video unit is enabled. -/
  marked : ∀ id, w.accel.streamIdMask id = true ↔
    ∃ i, (w.surfaces i).video.unit.enabled = true ∧ (w.surfaces i).video.streamId = id
  unique : ∀ i j, (w.surfaces i).video.unit.enabled = true →
    (w.surfaces j).video.unit.enabled = true →
    (w.surfaces i).video.streamId = (w.surfaces j).video.streamId → i = j
  /-- When all surfaces are closed, every id is free and disabled on the device. -/
  closed : (∀ i, (w.surfaces i).provider = false) →
    ∀ id, w.accel.streamIdMask id = false ∧ (w.accel.overlays id).enabled = false

/-- The invariant says that the marked ids are those of the overlays. -/
theorem StreamInv.streamsOwned {w : World} (h : StreamInv w.accel w.surfaces) :
    StreamsOwned w := by
  have howner : ∀ {i id}, (Surface.stream ∘ w.surfaces) i = some id ↔
      (w.surfaces i).video.unit.enabled = true ∧ (w.surfaces i).video.streamId = id :=
    Surface.stream_eq_some
  have hmarked : ∀ id, w.accel.streamIdMask id = true ↔
      ∃ i, (w.surfaces i).video.unit.enabled = true ∧ (w.surfaces i).video.streamId = id := by
    intro id
    exact (h.held.mem_iff h.noLeak).trans (exists_congr fun _ => howner)
  refine ⟨hmarked, ?_, ?_⟩
  · intro i j hi hj heq
    exact h.held.unique (howner.mpr ⟨hi, rfl⟩) (howner.mpr ⟨hj, heq.symm⟩)
  · intro hclosed id
    have hfree : w.accel.streamIdMask id = false := by
      refine Bool.eq_false_of_not_eq_true fun hid => ?_
      obtain ⟨i, henabled, -⟩ := (hmarked id).mp hid
      have := (h.open_video i henabled).2
      rw [hclosed i] at this
      cases this
    exact ⟨hfree, (h.shown id).trans hfree⟩

/-- It holds at the start. -/
theorem StreamInv.start (e : AccelSetup) (alloc : VMsvga2Allocator) :
    StreamInv (Accel.start e alloc) (World.start (Accel.start e alloc)).surfaces := by
  refine ⟨⟨?_, ?_⟩, ?_, ?_, fun _ => rfl, ?_⟩
  · rintro i id ⟨⟩
  · rintro i j id ⟨⟩
  · rintro id ⟨⟩
  · rintro id ⟨⟩
  · rintro i ⟨⟩

/-- **The stream ids** belong to the surfaces with an overlay, in every run in which no surface
with an overlay is given a video format. -/
theorem stream_ids_owned {e : AccelSetup} {alloc : VMsvga2Allocator} {as : List Action}
    {w : World} (h : Run World.step (fun w act => w.resetsVideo act = false)
      (World.start (Accel.start e alloc)) as w) : StreamsOwned w := by
  refine StreamInv.streamsOwned ?_
  refine h.invariant (I := fun w => StreamInv w.accel w.surfaces) ?_ (.start e alloc)
  intro w act w' hw hact hstep
  exact hw.step hact hstep

/-- A surface of 16 by 16 pixels with a context that shows video in it. -/
def videoSession : List Action :=
  [.start 0 ⟨0x1000, 16, 16, 0x100000, 64⟩ ⟨true, true, false, .success⟩,
    .client 0 (.setIdMode 7 ⟨false, true, .depth8888⟩ .success),
    .context 0 (.setSurface true 7 true true false false (some 0) ⟨true, true, false, .success⟩),
    .client 0 (.setShape ⟨4, 0, 0, 0, 0, some ⟨⟨0, 0, 16, 16⟩, [⟨0, 0, 16, 16⟩]⟩, 20, true⟩),
    .context 0 (.lockMemory true willing none),
    .context 0 .unlockMemory,
    .context 0 .swapSurface]

/-- While video is shown, the one id that is marked is that of the surface. -/
theorem stream_ids_owned_session : ∃ w, Run World.step (fun w act => w.resetsVideo act = false)
      smallWorld videoSession w ∧ w.accel.streamIdMask 0 = true ∧ StreamsOwned w := by
  have heval : (videoSession.foldlM (guarded World.step fun w act => w.resetsVideo act = false)
      smallWorld).map (·.accel.streamIdMask 0) = some true := by decide +kernel
  obtain ⟨w, hfold, hmask⟩ := Option.map_eq_some_iff.mp heval
  exact ⟨w, run_of_guarded hfold, hmask, stream_ids_owned (run_of_guarded hfold)⟩

/-- The context asks for another video format, and the surface is closed. -/
def formatChange : List Action :=
  videoSession ++
    [.context 0 (.setSurface true 7 true false true false (some 0) ⟨true, true, false, .success⟩),
      .client 0 .close]

/-- Another video format leaves the id marked and the overlay on when all surfaces are closed. -/
theorem stream_leaked : ∃ w, Run World.step Always smallWorld formatChange w ∧
    (∀ i, (w.surfaces i).provider = false) ∧ w.accel.streamIdMask 0 = true ∧
    (w.accel.overlays 0).enabled = true ∧ ¬ StreamsOwned w := by
  have heval : (formatChange.foldlM (guarded World.step fun w act => w.confined 0 act = true)
      smallWorld).map (fun w => ((w.surfaces 0).provider, w.accel.streamIdMask 0,
        (w.accel.overlays 0).enabled)) = some (false, true, true) := by decide +kernel
  obtain ⟨w, hfold, hend⟩ := Option.map_eq_some_iff.mp heval
  obtain ⟨hprovider, hend⟩ := Prod.mk.inj hend
  obtain ⟨hmask, hshown⟩ := Prod.mk.inj hend
  have hrun := run_of_guarded hfold
  have hclosed : ∀ i, (w.surfaces i).provider = false := by
    intro i
    by_cases hi : i = 0
    · rw [hi]
      exact hprovider
    · rw [World.run_frame hrun (fun _ _ h => h) hi]
      rfl
  refine ⟨w, hrun.mono fun _ _ _ => trivial, hclosed, hmask, hshown, fun h => ?_⟩
  have := (h.closed hclosed 0).1
  rw [hmask] at this
  cases this

end DockerMacos
