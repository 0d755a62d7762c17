import DockerMacos.FlushBounds

/-!
# What a Failing Call Leaves Behind

A call that returns an error has not always left the surface alone. `set_shape_backing_length_ext`
forgets the last region and the client's own memory before it has checked everything, and a write
lock that was let through while another one was held takes the other's bit down when it fails.

## Shapes

A shape is refused early, by the checks of the region, or late, when the region and the client
backing are gone (`RefusesLate`): there is no id, or the client's memory is too small for the
region (`Overruns`). A late refusal is no loss if there was nothing to forget.

## Locks

A lock tests and sets its bit, obtains memory and takes its bit down if there is none. With the
flag that lets a write lock through, the bit may have been another holder's (`dropsLock`). Along
a run the failing locks are looked at one by one, each in the state in which it is called.

## Main results

* `failed_shape`, `setShape_atomic_iff`: what a failing `set_shape_backing_length_ext` changes,
  and when it changes nothing.
* `failingLockKeeps_iff`: when a failing lock keeps all bits.
* `failing_locks_keep_iff`: when the failing locks of a run leave the lock bits alone.
-/

namespace DockerMacos

/-- A call that has failed. -/
def Result.failure : Result → Option (World × IOReturn × Outcome)
  | .ok w ret (some o) => if ret ≠ .success then some (w, ret, o) else none
  | _ => none

/-- A call that fails returns something else than success. -/
theorem Result.failure_eq {r : Result} {w : World} {ret : IOReturn} {o : Outcome}
    (h : r.failure = some (w, ret, o)) : r = .ok w ret (some o) ∧ ret ≠ .success := by
  unfold failure at h
  split at h
  · split at h
    · rename_i herror
      cases h
      exact ⟨rfl, herror⟩
    · cases h
  · cases h

namespace Surface

variable {a b : Accel} {s t : Surface} {o : Outcome}

/-! ### Shapes -/

/-- What `set_shape_backing_length_ext` sets is as before: the last region with its index, the
scale and the client backing. -/
structure ShapeKept (s t : Surface) : Prop where
  lastRegion : t.lastRegion = s.lastRegion
  framebufferIndex : t.framebufferIndex = s.framebufferIndex
  scale : t.scale = s.scale
  clientBacking : t.clientBacking = s.clientBacking

/-- The bytes of a row of the bounds. -/
def minRowBytes (s : Surface) (rgn : IOAccelDeviceRegion) : ℕ :=
  toU64 rgn.bounds.w.toInt * s.bytesPerPixel % 2 ^ 64

/-- The row bytes of a client backing for the region; zero and what is negative as a signed
number leave them to the driver. -/
def shapeRowBytes (s : Surface) (rgn : IOAccelDeviceRegion) (args : ShapeArgs) : ℕ :=
  if args.rowbytes = 0 ∨ args.rowbytes ≥ 2 ^ 63 then s.minRowBytes rgn else args.rowbytes

/-- A client backing comes with the shape whose row bytes or whose length are too small for the
region. -/
def Overruns (s : Surface) (rgn : IOAccelDeviceRegion) (args : ShapeArgs) : Prop :=
  args.backing ≠ 0 ∧ (s.shapeRowBytes rgn args < s.minRowBytes rgn ∨
    args.backingLength ≠ 0 ∧
      args.backingLength < toU64 rgn.bounds.h.toInt * s.shapeRowBytes rgn args % 2 ^ 64)

/-- The shape is refused after the surface has begun to forget the old one: the region passes
the checks of its size, and then there is no id, or the client backing is too small, or the
region cannot be stored. -/
def RefusesLate (s : Surface) (args : ShapeArgs) : Prop :=
  ∃ rgn, args.rgn = some rgn ∧ rgn.size ≤ args.rgnSize ∧ args.rgnSize ≤ 4096 ∧
    (s.videoMode = true ∨ rgn.isEmpty = false) ∧
    (s.haveID = false ∨ s.Overruns rgn args ∨ args.stored = false)

/-- Which client backings are refused. -/
theorem newClientBacking_cases (s : Surface) (rgn : IOAccelDeviceRegion) (args : ShapeArgs) :
    s.newClientBacking rgn args = .error .overrun ∧ s.Overruns rgn args ∨
      (∃ client, s.newClientBacking rgn args = .ok client) ∧ ¬ s.Overruns rgn args := by
  rw [newClientBacking, Overruns]
  by_cases hnull : args.backing = 0
  · rw [if_pos hnull]
    exact .inr ⟨⟨_, rfl⟩, fun h => h.1 hnull⟩
  rw [if_neg hnull]
  dsimp only
  rw [← minRowBytes, ← shapeRowBytes]
  by_cases hrow : s.shapeRowBytes rgn args < s.minRowBytes rgn
  · refine .inl ⟨if_pos ?_, hnull, .inl hrow⟩
    rw [shapeRowBytes] at hrow
    split at hrow
    · exact absurd hrow (lt_irrefl _)
    · rename_i hgiven
      exact ⟨hgiven, hrow⟩
  rw [if_neg]
  · by_cases hlength : args.backingLength ≠ 0 ∧
      args.backingLength < toU64 rgn.bounds.h.toInt * s.shapeRowBytes rgn args % 2 ^ 64
    · exact .inl ⟨if_pos hlength, hnull, .inr hlength⟩
    · exact .inr ⟨⟨_, if_neg hlength⟩, fun h => h.2.elim hrow hlength⟩
  · rintro ⟨hgiven, hless⟩
    rw [shapeRowBytes, if_neg hgiven] at hrow
    exact hrow hless

/-- Whether a shape overruns the client's memory depends on the depth. -/
theorem overruns_congr (h : t.bytesPerPixel = s.bytesPerPixel) (rgn : IOAccelDeviceRegion)
    (args : ShapeArgs) : t.Overruns rgn args ↔ s.Overruns rgn args := by
  rw [Overruns, Overruns, shapeRowBytes, shapeRowBytes, minRowBytes, minRowBytes, h]

/-- A shape that is refused late: the region and the client backing are gone. -/
structure ShapeForgotten (s t : Surface) : Prop where
  lastRegion : t.lastRegion = none
  framebufferIndex : t.framebufferIndex = if s.lastRegion.isSome then 0 else s.framebufferIndex
  scale : t.scale = s.scale
  clientBacking : t.clientBacking = .zero

/-- Without its region and its client memory, a surface has forgotten its shape. -/
theorem clearLastRegion_forgotten (s : Surface) :
    ShapeForgotten s { s.clearLastRegion with clientBacking := .zero } := by
  rw [clearLastRegion]
  split
  · rename_i hsome
    exact ⟨rfl, (if_pos hsome).symm, rfl, rfl⟩
  · rename_i hnone
    exact ⟨Option.not_isSome_iff_eq_none.mp hnone, (if_neg hnone).symm, rfl, rfl⟩

/-- **A failing shape** is refused early and changes nothing, or late, and then the old shape is
forgotten. -/
theorem setShape_fails {args : ShapeArgs} (h : s.setShape a args = some o)
    (herror : o.ret ≠ .success) :
    ¬ s.RefusesLate args ∧ o.surface = s ∨ s.RefusesLate args ∧ ShapeForgotten s o.surface := by
  obtain ⟨hmode, hid, hbytes, -, -⟩ := s.clearLastRegion_same
  have hforgotten := s.clearLastRegion_forgotten
  rw [setShape] at h
  split at h
  · rename_i hnull
    cases h
    refine .inl ⟨?_, rfl⟩
    rintro ⟨rgn, hrgn, -⟩
    rw [hnull] at hrgn
    cases hrgn
  rename_i rgn hrgn
  have hlate : ∀ u, s.RefusesLate u → u.rgn = some rgn → rgn.size ≤ u.rgnSize ∧
      u.rgnSize ≤ 4096 := by
    rintro u ⟨r, hr, hsmall, hlarge, -⟩ hu
    obtain rfl := Option.some.inj (hr.symm.trans hu)
    exact ⟨hsmall, hlarge⟩
  split at h
  · rename_i hsmall
    cases h
    exact .inl ⟨fun hl => absurd (hlate args hl hrgn).1 (Nat.not_le.mpr hsmall), rfl⟩
  rename_i hsmall
  split at h
  · rename_i hlarge
    cases h
    exact .inl ⟨fun hl => absurd (hlate args hl hrgn).2 (Nat.not_le.mpr hlarge), rfl⟩
  rename_i hlarge
  have hsizes : rgn.size ≤ args.rgnSize ∧ args.rgnSize ≤ 4096 :=
    ⟨Nat.not_lt.mp hsmall, Nat.not_lt.mp hlarge⟩
  dsimp only at h
  split at h
  · cases h
    exact absurd rfl herror
  rename_i hshown
  have hshown : s.videoMode = true ∨ rgn.isEmpty = false := by
    rw [hmode] at hshown
    cases hvideo : s.videoMode with
    | true => exact .inl rfl
    | false => exact .inr (by simpa [hvideo] using hshown)
  split at h
  · rename_i hnoID
    rw [hid, Bool.not_eq_true'] at hnoID
    cases h
    exact .inr ⟨⟨rgn, hrgn, hsizes.1, hsizes.2, hshown, .inl hnoID⟩, hforgotten⟩
  have hcases := newClientBacking_cases { s.clearLastRegion with clientBacking := .zero } rgn args
  split at h
  · rename_i rc hrc
    cases h
    rcases hcases with ⟨-, hover⟩ | ⟨⟨client, hok⟩, -⟩
    · exact .inr ⟨⟨rgn, hrgn, hsizes.1, hsizes.2, hshown,
        .inr (.inl ((overruns_congr hbytes rgn args).mp hover))⟩, hforgotten⟩
    · rw [hrc] at hok
      cases hok
  · rename_i client hclient
    split at h
    · rename_i hstored
      rw [Bool.not_eq_true'] at hstored
      cases h
      refine .inr ⟨⟨rgn, hrgn, hsizes.1, hsizes.2, hshown, .inr (.inr hstored)⟩, ?_⟩
      cases client <;>
        exact ⟨hforgotten.lastRegion, hforgotten.framebufferIndex, hforgotten.scale, rfl⟩
    · obtain ⟨⟨b, v⟩, -, rfl⟩ := Option.map_eq_some_iff.mp h
      exact absurd rfl herror

/-- A shape that is refused late does fail. -/
theorem setShape_refused {args : ShapeArgs} (h : s.RefusesLate args) (a : Accel) :
    ∃ o, s.setShape a args = some o ∧ o.ret ≠ .success := by
  obtain ⟨hmode, hid, hbytes, -, -⟩ := s.clearLastRegion_same
  obtain ⟨rgn, hrgn, hsmall, hlarge, hshown, hrefused⟩ := h
  rw [setShape, hrgn]
  dsimp only
  rw [if_neg (Nat.not_lt.mpr hsmall), if_neg (Nat.not_lt.mpr hlarge), if_neg]
  · split
    · exact ⟨_, rfl, by rintro ⟨⟩⟩
    rename_i hhaveID
    rw [hid, Bool.not_eq_true', Bool.not_eq_false] at hhaveID
    rcases newClientBacking_cases { s.clearLastRegion with clientBacking := .zero } rgn args
      with ⟨hclient, -⟩ | ⟨⟨client, hclient⟩, hfits⟩
    · rw [hclient]
      exact ⟨_, rfl, by rintro ⟨⟩⟩
    · rw [hclient]
      dsimp only
      rcases hrefused with hnoID | hover | hstored
      · rw [hhaveID] at hnoID
        cases hnoID
      · exact absurd ((overruns_congr hbytes rgn args).mpr hover) hfits
      · rw [if_pos (by rw [hstored]; rfl)]
        exact ⟨_, rfl, by rintro ⟨⟩⟩
  · rw [hmode]
    rcases hshown with hvideo | hfull
    · simp [hvideo]
    · simp [hfull]

/-- **Set-shape is atomic** if and only if it is not refused late, or there was no old shape to
forget. -/
theorem setShape_atomic_iff (s : Surface) (a : Accel) (args : ShapeArgs) :
    (∀ o, s.setShape a args = some o → o.ret ≠ .success → ShapeKept s o.surface) ↔
      (s.RefusesLate args → s.lastRegion = none ∧ s.clientBacking = .zero) := by
  constructor
  · intro h hlate
    obtain ⟨o, hset, herror⟩ := setShape_refused hlate a
    have hkept := h o hset herror
    rcases setShape_fails hset herror with ⟨hearly, -⟩ | ⟨-, hforgotten⟩
    · exact absurd hlate hearly
    · exact ⟨hkept.lastRegion.symm.trans hforgotten.lastRegion,
        hkept.clientBacking.symm.trans hforgotten.clientBacking⟩
  · intro h o hset herror
    rcases setShape_fails hset herror with ⟨-, hsame⟩ | ⟨hlate, hforgotten⟩
    · rw [hsame]
      exact ⟨rfl, rfl, rfl, rfl⟩
    · obtain ⟨hregion, hclient⟩ := h hlate
      refine ⟨hforgotten.lastRegion.trans hregion.symm, ?_, hforgotten.scale,
        hforgotten.clientBacking.trans hclient.symm⟩
      rw [hforgotten.framebufferIndex, hregion]
      rfl

/-- **A failing set-shape** that is not refused late changes nothing of the shape, and one that is
leaves the surface without region and client backing; the scale stays. -/
theorem failed_shape {args : ShapeArgs} (h : s.setShape a args = some o)
    (herror : o.ret ≠ .success) :
    o.surface.scale = s.scale ∧ (¬ s.RefusesLate args → ShapeKept s o.surface) ∧
      (s.RefusesLate args → ShapeForgotten s o.surface) := by
  rcases setShape_fails h herror with ⟨hearly, hsame⟩ | ⟨hlate, hforgotten⟩
  · rw [hsame]
    exact ⟨rfl, fun _ => ⟨rfl, rfl, rfl, rfl⟩, fun hlate => absurd hlate hearly⟩
  · exact ⟨hforgotten.scale, fun hearly => absurd hlate hearly, fun _ => hforgotten⟩

end Surface

/-- The client's memory comes with rows that are too short for the window. -/
def narrowShape : Action := .client 0 (.setShape { windowShape 0x50000 with rowbytes := 8 })

/-- The window loses its region when the new shape is refused. -/
theorem setShape_forgets : ∃ w w₁ o, Run World.step Always smallWorld (windowSession 0) w ∧
    w.result narrowShape = .ok w₁ .overrun (some o) ∧
    (w.surfaces 0).lastRegion.isSome = true ∧ (w₁.surfaces 0).lastRegion = none ∧
    ¬ Surface.ShapeKept (w.surfaces 0) (w₁.surfaces 0) := by
  have heval : (((windowSession 0).foldlM World.step smallWorld).bind fun w =>
      (w.result narrowShape).failure.map fun r =>
        (r.2.1, (w.surfaces 0).lastRegion.isSome, (r.1.surfaces 0).lastRegion)) =
      some (.overrun, true, none) := by
    decide +kernel
  obtain ⟨w, hfold, heval⟩ := Option.bind_eq_some_iff.mp heval
  obtain ⟨⟨w₁, ret, o⟩, hfailure, heval⟩ := Option.map_eq_some_iff.mp heval
  obtain ⟨rfl, hbefore, hafter⟩ : ret = .overrun ∧ (w.surfaces 0).lastRegion.isSome = true ∧
      (w₁.surfaces 0).lastRegion = none := by simpa only [Prod.mk.injEq] using heval
  refine ⟨w, w₁, o, run_of_foldlM hfold, (Result.failure_eq hfailure).1, hbefore, hafter, ?_⟩
  intro hkept
  rw [← hkept.lastRegion, hafter] at hbefore
  cases hbefore

/-- A shape without a region changes nothing, one with rows that are too short the region. -/
theorem failed_shape_session : ∃ s a o o', Surface.setShape s a { windowShape 0 with rgn := none } =
      some o ∧ s.setShape a { windowShape 0x50000 with rowbytes := 8 } = some o' ∧
    s.lastRegion.isSome = true ∧ Surface.ShapeKept s o.surface ∧
    Surface.ShapeForgotten s o'.surface := by
  have heval : ((windowSession 0).foldlM World.step smallWorld).bind (fun w =>
      ((w.surfaces 0).setShape w.accel { windowShape 0 with rgn := none }).bind fun o =>
        ((w.surfaces 0).setShape w.accel { windowShape 0x50000 with rowbytes := 8 }).map fun o' =>
          (o.ret, o'.ret, (w.surfaces 0).lastRegion.isSome, (w.surfaces 0).bytesPerPixel)) =
      some (.badArgument, .overrun, true, 4) := by
    decide +kernel
  obtain ⟨w, -, heval⟩ := Option.bind_eq_some_iff.mp heval
  obtain ⟨o, hnull, heval⟩ := Option.bind_eq_some_iff.mp heval
  obtain ⟨o', hnarrow, heval⟩ := Option.map_eq_some_iff.mp heval
  obtain ⟨hret, hret', hregion, hbytes⟩ : o.ret = .badArgument ∧ o'.ret = .overrun ∧
      (w.surfaces 0).lastRegion.isSome = true ∧ (w.surfaces 0).bytesPerPixel = 4 := by
    simpa only [Prod.mk.injEq] using heval
  refine ⟨w.surfaces 0, w.accel, o, o', hnull, hnarrow, hregion, ?_, ?_⟩
  · refine (Surface.failed_shape hnull (by rw [hret]; decide)).2.1 ?_
    rintro ⟨rgn, hrgn, -⟩
    cases hrgn
  · refine (Surface.failed_shape hnarrow (by rw [hret']; decide)).2.2 ?_
    refine ⟨_, rfl, by decide, by decide, .inr rfl, .inr (.inl ⟨by decide, .inl ?_⟩)⟩
    rw [Surface.shapeRowBytes, Surface.minRowBytes, hbytes]
    decide

namespace Surface

variable {a b : Accel} {s t : Surface} {o : Outcome}

/-! ### Locks -/

/-- The bits of `bIsLocked`. -/
def lockBits (s : Surface) : Bool × Bool × Bool := (s.lockedRead, s.lockedWrite, s.lockedContext)

/-- A write lock that the flag lets through while the lock is held, and that needs memory. -/
def dropsLock (s : Surface) : SurfaceOp → Bool
  | .writeLock infoOk _ =>
      infoOk && s.haveID && s.isSourceValid && s.skipWriteLockOnce && s.lockedWrite &&
        !s.isClientBackingValid
  | _ => false

/-- Another backing does not change the locks. -/
theorem Rebacked.lockBits (h : Rebacked s t) : t.lockBits = s.lockBits := by
  obtain ⟨b, rfl⟩ := h
  rfl

/-- The first map changes the backing at most. -/
theorem mapBacking0_rebacked {env : BackingEnv} {ok : Bool}
    (h : s.mapBacking0 a env = some (ok, b, t)) : Rebacked s t := by
  rw [mapBacking0] at h
  split at h
  · cases h
    exact .refl s
  · obtain ⟨⟨m, a₁⟩, -, heq⟩ := Option.map_eq_some_iff.mp h
    cases heq
    exact ⟨_, rfl⟩

/-- So does the second one. -/
theorem mapBacking1_rebacked {env : BackingEnv} {ok : Bool}
    (h : s.mapBacking1 a env = some (ok, b, t)) : Rebacked s t := by
  rw [mapBacking1] at h
  split at h
  · cases h
    exact .refl s
  · obtain ⟨⟨m, a₁⟩, -, heq⟩ := Option.map_eq_some_iff.mp h
    cases heq
    exact ⟨_, rfl⟩

/-- So do `allocBacking` and the first map. -/
theorem allocAndMap0_rebacked {env : BackingEnv} {ok : Bool}
    (h : s.allocAndMap0 a env = some (ok, b, t)) : Rebacked s t := by
  rw [allocAndMap0] at h
  split at h
  · rename_i halloc
    exact (allocBacking_kept halloc).2.trans (mapBacking0_rebacked h)
  · exact (allocBacking_kept h).2

/-- So do `allocBacking` and the second map. -/
theorem allocAndMap1_rebacked {env : BackingEnv} {ok : Bool}
    (h : s.allocAndMap1 a env = some (ok, b, t)) : Rebacked s t := by
  rw [allocAndMap1] at h
  split at h
  · rename_i halloc
    exact (allocBacking_kept halloc).2.trans (mapBacking1_rebacked h)
  · exact (allocBacking_kept h).2

/-- A failing read lock takes down the bit that it has set. -/
theorem readLock_fails {infoOk : Bool} {env : BackingEnv} (h : s.readLock a infoOk env = some o)
    (herror : o.ret ≠ .success) : o.surface.lockBits = s.lockBits := by
  rw [readLock] at h
  split at h
  · cases h
    rfl
  split at h
  · cases h
    rfl
  split at h
  · cases h
    rfl
  rename_i hfree
  dsimp only at h
  split at h
  · cases h
    exact absurd rfl herror
  · obtain ⟨⟨ok, b, t⟩, hmem, rfl⟩ := Option.map_eq_some_iff.mp h
    obtain ⟨backing, rfl⟩ := allocAndMap0_rebacked hmem
    cases ok with
    | true => exact absurd rfl herror
    | false => simp [lockBits, Bool.eq_false_of_not_eq_true hfree]

/-- A failing context lock takes down the bit that it has set. -/
theorem contextLock_fails {argsOk : Bool} {env : BackingEnv} {trick : Option (Option ℕ)}
    (h : s.contextLock a argsOk env trick = some o) (herror : o.ret ≠ .success) :
    o.surface.lockBits = s.lockBits := by
  rw [contextLock] at h
  split at h
  · cases h
    rfl
  split at h
  · cases h
    rfl
  split at h
  · cases h
    rfl
  rename_i hfree
  split at h
  · cases h
  · rename_i b t hmem
    obtain ⟨backing, rfl⟩ := allocAndMap1_rebacked hmem
    cases h
    simp [lockBits, Bool.eq_false_of_not_eq_true hfree]
  · split at h
    · split at h
      · cases h
      · split at h
        · cases h
          exact absurd rfl herror
        · cases h
          exact absurd rfl herror
    · cases h
      exact absurd rfl herror

/-- The part of a failing write lock behind the bit takes the bit down, whoever has set it. -/
theorem writeLocked_fails {env : BackingEnv} (h : s.writeLocked a env = some o)
    (herror : o.ret ≠ .success) :
    s.isClientBackingValid = false ∧
      o.surface.lockBits = (s.lockedRead, false, s.lockedContext) := by
  rw [writeLocked] at h
  split at h
  · cases h
    exact absurd rfl herror
  · rename_i hclient
    obtain ⟨⟨ok, b, t⟩, hmem, rfl⟩ := Option.map_eq_some_iff.mp h
    obtain ⟨backing, rfl⟩ := allocAndMap0_rebacked hmem
    cases ok with
    | true => exact absurd rfl herror
    | false => exact ⟨Bool.eq_false_of_not_eq_true hclient, rfl⟩

/-- A failing write lock leaves the bits alone if and only if it was not let through while the
lock was held. -/
theorem writeLock_fails {infoOk : Bool} {env : BackingEnv}
    (h : s.writeLock a infoOk env = some o) (herror : o.ret ≠ .success) :
    o.surface.lockBits = s.lockBits ↔ s.dropsLock (.writeLock infoOk env) = false := by
  rw [writeLock] at h
  split at h
  · rename_i hinfo
    cases h
    refine ⟨fun _ => ?_, fun _ => rfl⟩
    rw [Bool.not_eq_true'] at hinfo
    simp [dropsLock, hinfo]
  rename_i hinfo
  split at h
  · rename_i hready
    cases h
    refine ⟨fun _ => ?_, fun _ => rfl⟩
    rw [Bool.or_eq_true, Bool.not_eq_true', Bool.not_eq_true'] at hready
    rcases hready with hid | hsource
    · simp [dropsLock, hid]
    · simp [dropsLock, hsource]
  rename_i hready
  simp only [Bool.or_eq_true, Bool.not_eq_true', not_or, Bool.not_eq_false] at hinfo hready
  split at h
  · rename_i hskip
    obtain ⟨hclient, hbits⟩ := writeLocked_fails h herror
    rw [hbits]
    have hclient : s.isClientBackingValid = false := hclient
    cases hheld : s.lockedWrite with
    | true => simp [dropsLock, lockBits, hinfo, hready, hskip, hclient, hheld]
    | false => simp [dropsLock, lockBits, hheld]
  rename_i hskip
  rw [Bool.not_eq_true] at hskip
  have hkeeps : s.dropsLock (.writeLock infoOk env) = false := by simp [dropsLock, hskip]
  refine ⟨fun _ => hkeeps, fun _ => ?_⟩
  split at h
  · cases h
    rfl
  · rename_i hfree
    rw [(writeLocked_fails h herror).2, lockBits, Bool.eq_false_of_not_eq_true hfree]

end Surface

/-- The calls that lock a surface. -/
def SurfaceOp.locks : SurfaceOp → Bool
  | .readLock .. => true
  | .writeLock .. => true
  | .contextLock .. => true
  | _ => false

/-- A failing lock of a surface leaves its bits alone if and only if it drops no lock. -/
theorem Surface.lock_fails {a : Accel} {s : Surface} {o : Outcome} {op : SurfaceOp}
    (hlock : op.locks = true) (h : s.apply a op = some o) (herror : o.ret ≠ .success) :
    o.surface.lockBits = s.lockBits ↔ s.dropsLock op = false := by
  cases op with
  | readLock infoOk env => exact iff_of_true (readLock_fails h herror) rfl
  | writeLock infoOk env => exact writeLock_fails h herror
  | contextLock argsOk env trick => exact iff_of_true (contextLock_fails h herror) rfl
  | _ => cases hlock

namespace World

/-- The action, if it is a lock and fails, leaves the lock bits of all surfaces alone. -/
def FailingLockKeeps (w : World) (act : Action) : Prop :=
  ∀ {i op w' ret out}, w.called act = some (i, op) → op.locks = true →
    w.result act = .ok w' ret out → ret ≠ .success →
      ∀ j, (w'.surfaces j).lockBits = (w.surfaces j).lockBits

/-- The action, if it is a lock and fails, is not one that drops the lock of another holder. -/
def FailingLockAlone (w : World) (act : Action) : Prop :=
  ∀ {i op w' ret out}, w.called act = some (i, op) → op.locks = true →
    w.result act = .ok w' ret out → ret ≠ .success → (w.surfaces i).dropsLock op = false

/-- A call changes its own surface. -/
theorem result_call {w w' : World} {act : Action} {i : ℕ} {op : SurfaceOp} {ret : IOReturn}
    {out : Option Outcome} (hcalled : w.called act = some (i, op))
    (h : w.result act = .ok w' ret out) :
    ∃ o, (w.surfaces i).apply w.accel op = some o ∧ o.ret = ret ∧
      w'.surfaces = Function.update w.surfaces i o.surface := by
  have hmoved := result_moved h
  cases hmoved with
  | @called _ k op' o x hcalled' happly =>
      rw [hcalled] at hcalled'
      cases hcalled'
      exact ⟨o, happly, (result_called hcalled h).2.1, rfl⟩
  | started => cases hcalled
  | wrote => cases hcalled
  | stayed x hnone =>
      rw [hcalled] at hnone
      cases hnone

/-- **A step**: a failing lock keeps all bits if and only if it drops no lock. -/
theorem failingLockKeeps_iff (w : World) (act : Action) :
    w.FailingLockKeeps act ↔ w.FailingLockAlone act := by
  constructor
  · intro h i op w' ret out hcalled hlock hresult herror
    obtain ⟨o, happly, rfl, hsurfaces⟩ := result_call hcalled hresult
    have hsame := h hcalled hlock hresult herror i
    rw [hsurfaces, Function.update_self] at hsame
    exact (Surface.lock_fails hlock happly herror).mp hsame
  · intro h i op w' ret out hcalled hlock hresult herror j
    have halone := h hcalled hlock hresult herror
    obtain ⟨o, happly, rfl, hsurfaces⟩ := result_call hcalled hresult
    rw [hsurfaces]
    by_cases hj : j = i
    · rw [hj, Function.update_self]
      exact (Surface.lock_fails hlock happly herror).mpr halone
    · rw [Function.update_of_ne hj]

end World

/-- **A failing lock changes no lock** all through a run if and only if no failing lock of the
run is a write lock that was let through while the lock was held. -/
theorem failing_locks_keep_iff (a : Accel) (as : List Action) (w : World) :
    Run World.step World.FailingLockKeeps (.start a) as w ↔
      Run World.step World.FailingLockAlone (.start a) as w :=
  ⟨Run.mono fun v act => (v.failingLockKeeps_iff act).mp,
    Run.mono fun v act => (v.failingLockKeeps_iff act).mpr⟩

/-- The screen's own window is locked for writing, and its shape is set as for a window grab. -/
def grabbedScreen : List Action :=
  lockSession.take 1 ++
    [.client 0 (.setIdMode 1 ⟨false, true, .depth8888⟩ .success),
      .client 0 (.setShape (windowShape 0)),
      .client 0 (.writeLock true willing),
      .client 0 (.setShape { windowShape 0 with options := 5 }),
      .client 0 (.setScale (some (⟨0, 0, 64, 64⟩, 64, 64)))]

/-- A write lock while there is no memory. -/
def starvedLock : Action :=
  .client 0 (.writeLock true ⟨true, false, .noMemory, .noMemory, none⟩)

/-- The second write lock fails, and the first one is gone. -/
theorem failing_lock_drops : ∃ w w₁ o, Run World.step Always smallWorld grabbedScreen w ∧
    w.result starvedLock = .ok w₁ .noMemory (some o) ∧
    (w.surfaces 0).lockedWrite = true ∧ (w₁.surfaces 0).lockedWrite = false ∧
    ¬ w.FailingLockKeeps starvedLock := by
  have heval : ((grabbedScreen.foldlM World.step smallWorld).bind fun w =>
      (w.result starvedLock).failure.map fun r =>
        (r.2.1, (w.surfaces 0).lockedWrite, (r.1.surfaces 0).lockedWrite)) =
      some (.noMemory, true, false) := by
    decide +kernel
  obtain ⟨w, hfold, heval⟩ := Option.bind_eq_some_iff.mp heval
  obtain ⟨⟨w₁, ret, o⟩, hfailure, heval⟩ := Option.map_eq_some_iff.mp heval
  obtain ⟨rfl, hbefore, hafter⟩ : ret = .noMemory ∧ (w.surfaces 0).lockedWrite = true ∧
      (w₁.surfaces 0).lockedWrite = false := by simpa only [Prod.mk.injEq] using heval
  obtain ⟨hresult, herror⟩ := Result.failure_eq hfailure
  refine ⟨w, w₁, o, run_of_foldlM hfold, hresult, hbefore, hafter, fun hkeeps => ?_⟩
  have hbits := hkeeps (World.called_client hresult) rfl hresult herror 0
  rw [Surface.lockBits, Surface.lockBits, Prod.mk.injEq, Prod.mk.injEq, hbefore, hafter] at hbits
  cases hbits.2.1

end DockerMacos
