import DockerMacos.GmrOwnership
import DockerMacos.SurfaceActions

/-!
# The Regions of Backings

The functions of a surface that obtain and release its backing
(`AC/UC/VMsvga2Surface.cpp`), for any number of surfaces of one accelerator. Each of them
completes the transfer buffer before it gives it another descriptor, and a preparation that
fails leaves neither a region nor a descriptor behind.

## Runs of these functions

`Backings` is an accelerator with its open surfaces, and a step calls one of the functions for
one surface, with any outcome of what the system decides. In between a surface may get any
other geometry and any client backing. That the calls of surfaces come to nothing else is not
said here but where the calls are.

## Exactly once

The log of the accelerator has an entry for every id that is taken and for every one that is
freed. `GmrIdsOwned` says of each id that these alternate, and that the marked ids are those
which a prepared buffer has.

## Main results

* `GmrBackings.allocBacking`, `GmrBackings.wrapClientBacking`, `GmrBackings.releaseBacking`:
  the functions keep the invariant of `GmrOwnership`.
* `gmr_ids_owned`: in every run of them the marked ids are those of the prepared buffers.
-/

namespace DockerMacos

/-- The invariant depends on the descriptors and the ids of the transfer buffers only. -/
theorem GmrInv.congr {maxGmrIds : ℕ} {a : Accel} {vtbs vtbs' : ℕ → VendorTransferBuffer}
    (h : GmrInv maxGmrIds a vtbs) (hmd : ∀ i, (vtbs' i).md = (vtbs i).md)
    (hid : ∀ i, (vtbs' i).gmrId = (vtbs i).gmrId) : GmrInv maxGmrIds a vtbs' := by
  have hregion : ∀ i, (vtbs' i).region = (vtbs i).region := by
    intro i
    rw [VendorTransferBuffer.region, VendorTransferBuffer.region, hid]
  have hpinned : ∀ i, (vtbs' i).pinned = (vtbs i).pinned := by
    intro i
    rw [VendorTransferBuffer.pinned, VendorTransferBuffer.pinned, hid, hmd]
  have hregions : (fun i => (vtbs' i).region) = fun i => (vtbs i).region := funext hregion
  have hpins : (fun i => (vtbs' i).pinned) = fun i => (vtbs i).pinned := funext hpinned
  refine ⟨h.reserved, hregions ▸ h.held, hregions ▸ h.noLeak, ?_, ?_, hregions ▸ h.defined,
    hpins ▸ h.pinned, hpins ▸ h.prepared, h.fresh, ?_, h.ledger⟩
  · intro i id hi
    rw [hmd]
    exact h.region i id (hregion i ▸ hi)
  · intro i hi
    rw [hmd]
    exact h.idle i (hregion i ▸ hi)
  · intro i id hi
    exact h.hasGmr i id (hregion i ▸ hi)

/-- A surface without a backing has no descriptor. -/
theorem Surface.md_of_classify_none {s : Surface} (h : s.classifyBacking = .none) :
    s.backing.vtb.md = none := by
  rw [classifyBacking] at h
  split at h
  · cases h
  split at h
  · split at h <;> cases h
  · rename_i hmd
    simpa only [Option.isSome_iff_ne_none, ne_eq, not_not] using hmd

/-- A completed transfer buffer holds no region, if it could be completed. -/
theorem VendorTransferBuffer.complete_region {vtb : VendorTransferBuffer} {provider : Bool}
    (a : Accel) (hprovider : ∀ id, vtb.region = some id → provider = true) :
    (vtb.complete provider a).2.region = none := by
  cases hregion : vtb.region with
  | none =>
      rw [complete_idle _ _ hregion]
      exact hregion
  | some id =>
      obtain ⟨hvalid, rfl⟩ := region_eq_some.mp hregion
      rw [complete, hprovider _ hregion, hvalid]
      rfl

/-- **The invariant** of an accelerator and its surfaces. -/
structure GmrBackings (maxGmrIds : ℕ) (a : Accel) (surfaces : ℕ → Surface) : Prop where
  inv : GmrInv maxGmrIds a fun i => (surfaces i).backing.vtb
  /-- Only an open surface holds a region. -/
  opened : ∀ i id, (surfaces i).backing.vtb.region = some id → (surfaces i).provider = true

namespace GmrBackings

variable {maxGmrIds : ℕ} {a b : Accel} {surfaces : ℕ → Surface} {i : ℕ} {s t : Surface}

/-- The transfer buffers when one surface is replaced. -/
theorem buffers_update (surfaces : ℕ → Surface) (i : ℕ) (s : Surface) :
    (fun j => (Function.update surfaces i s j).backing.vtb) =
      Function.update (fun j => (surfaces j).backing.vtb) i s.backing.vtb :=
  funext fun j => Function.apply_update (fun _ (s : Surface) => s.backing.vtb) surfaces i s j

/-- The invariant with the surface `i` apart. -/
theorem mk_update (hinv : GmrInv maxGmrIds a
      (Function.update (fun j => (surfaces j).backing.vtb) i t.backing.vtb))
    (hopened : ∀ id, t.backing.vtb.region = some id → t.provider = true)
    (hothers : ∀ j id, j ≠ i → (surfaces j).backing.vtb.region = some id →
      (surfaces j).provider = true) :
    GmrBackings maxGmrIds a (Function.update surfaces i t) := by
  refine ⟨by rwa [buffers_update], ?_⟩
  intro j id hj
  by_cases hji : j = i
  · subst hji
    rw [Function.update_self] at hj ⊢
    exact hopened id hj
  · rw [Function.update_of_ne hji] at hj ⊢
    exact hothers j id hji hj

/-- The other surfaces with a region are open. -/
theorem others (h : GmrBackings maxGmrIds a (Function.update surfaces i s)) :
    ∀ j id, j ≠ i → (surfaces j).backing.vtb.region = some id →
      (surfaces j).provider = true := by
  intro j id hji hj
  have := h.opened j id
  rw [Function.update_of_ne hji] at this
  exact this hj

/-- What the invariant says of the regions when one surface is replaced. -/
theorem inv_update (h : GmrBackings maxGmrIds a (Function.update surfaces i s)) :
    GmrInv maxGmrIds a (Function.update (fun j => (surfaces j).backing.vtb) i s.backing.vtb) := by
  rw [← buffers_update]
  exact h.inv

/-- Without a descriptor there is no region. -/
theorem idle_of_md (h : GmrBackings maxGmrIds a (Function.update surfaces i s))
    (hmd : s.backing.vtb.md = none) : s.backing.vtb.region = none := by
  cases hregion : s.backing.vtb.region with
  | none => rfl
  | some id =>
      obtain ⟨md, hsome, -⟩ := h.inv_update.region i id (by rw [Function.update_self, hregion])
      rw [Function.update_self, hmd] at hsome
      cases hsome

/-- What the regions do not depend on may change. -/
theorem kept (h : GmrBackings maxGmrIds a (Function.update surfaces i s)) (hundone : a.Undone b)
    (hmd : t.backing.vtb.md = s.backing.vtb.md) (hid : t.backing.vtb.gmrId = s.backing.vtb.gmrId)
    (hprovider : ∀ id, s.backing.vtb.region = some id → s.provider = true →
      t.provider = true) :
    GmrBackings maxGmrIds b (Function.update surfaces i t) := by
  have hregion : t.backing.vtb.region = s.backing.vtb.region := by
    rw [VendorTransferBuffer.region, VendorTransferBuffer.region, hid]
  refine mk_update ((h.inv_update.undone hundone).congr ?_ ?_) ?_ h.others
  · intro j
    by_cases hji : j = i
    · rw [hji, Function.update_self, Function.update_self, hmd]
    · rw [Function.update_of_ne hji, Function.update_of_ne hji]
  · intro j
    by_cases hji : j = i
    · rw [hji, Function.update_self, Function.update_self, hid]
    · rw [Function.update_of_ne hji, Function.update_of_ne hji]
  · intro id hidt
    have := h.opened i id
    rw [Function.update_self] at this
    exact hprovider id (hregion ▸ hidt) (this (hregion ▸ hidt))

/-- The transfer buffer is completed and initialised again. -/
theorem completed (h : GmrBackings maxGmrIds a (Function.update surfaces i s))
    (hregion : t.backing.vtb.region = none) (hmd : t.backing.vtb.md = none) :
    GmrBackings maxGmrIds (s.backing.vtb.complete s.provider a).1
      (Function.update surfaces i t) := by
  refine mk_update ?_ (fun id hid => ?_) h.others
  · have hopened := h.opened i
    rw [Function.update_self] at hopened
    cases hheld : s.backing.vtb.region with
    | none =>
        rw [VendorTransferBuffer.complete_idle _ _ hheld]
        exact h.inv_update.idle_update hheld hregion hmd
    | some id =>
        have hself :
            (Function.update (fun j => (surfaces j).backing.vtb) i s.backing.vtb i).region =
            some id := by rw [Function.update_self, hheld]
        obtain ⟨md, hsome, -⟩ := h.inv_update.region i id hself
        rw [Function.update_self] at hsome
        rw [hopened id hheld, VendorTransferBuffer.complete_held hheld hsome
          (h.inv_update.region_lt hself) (h.inv_update.hasGmr i id hself)]
        exact h.inv_update.release hheld hsome hregion hmd
  · rw [hregion] at hid
    cases hid

/-- **`releaseBacking`**. -/
theorem releaseBacking (h : GmrBackings maxGmrIds a (Function.update surfaces i s)) :
    GmrBackings maxGmrIds (s.releaseBacking a).1
      (Function.update surfaces i (s.releaseBacking a).2) := by
  have hdone := h.completed (t := (s.releaseBacking a).2) rfl rfl
  rw [Surface.releaseBacking]
  dsimp only
  split
  · exact hdone.kept ⟨rfl, rfl, rfl, rfl, le_rfl, .inl rfl⟩ rfl rfl fun _ _ h => h
  · exact hdone

/-- `prepareBacking` with a new descriptor. -/
theorem prepareBacking (h : GmrBackings maxGmrIds a (Function.update surfaces i s))
    (hidle : s.backing.vtb.region = none) (env : BackingEnv) (memory : Memory) (gartPtr : ℕ) :
    GmrBackings maxGmrIds
      (s.prepareBacking { a with nextId := a.nextId + 1 } env ⟨a.nextId, memory⟩ gartPtr).2.1
      (Function.update surfaces i
        (s.prepareBacking { a with nextId := a.nextId + 1 } env ⟨a.nextId, memory⟩
          gartPtr).2.2) := by
  have hfresh : a.prepared a.nextId = false := by
    refine Bool.eq_false_of_not_eq_true fun hprepared => ?_
    exact absurd (h.inv.fresh _ hprepared) (lt_irrefl _)
  have hnext : a.Undone { a with nextId := a.nextId + 1 } :=
    ⟨rfl, rfl, rfl, rfl, Nat.le_succ _, .inl rfl⟩
  have hinv := h.inv_update.undone hnext
  have hmd : ({ s.backing.vtb with md := some ⟨a.nextId, memory⟩ } : VendorTransferBuffer).md =
      some ⟨a.nextId, memory⟩ := rfl
  rcases VendorTransferBuffer.prepare_cases s.provider { a with nextId := a.nextId + 1 } env hmd
      hidle hfresh with
    ⟨id, hlt, hclear, hgmr, hprovider, heq⟩ | ⟨rc, b, vtb', hrc, heq, hidle', hundone⟩
  · rw [Surface.prepareBacking, heq]
    refine mk_update (hinv.define hidle hlt hclear hgmr hfresh (Nat.lt_succ_self _) rfl rfl) ?_
      h.others
    intro _ _
    exact hprovider
  · have hfail : s.prepareBacking { a with nextId := a.nextId + 1 } env ⟨a.nextId, memory⟩
        gartPtr = (false, b, { s with backing := { s.backing with
          vtb := { vtb' with md := none } } }) := by
      rw [Surface.prepareBacking, heq]
      cases rc with
      | success => exact absurd rfl hrc
      | _ => rfl
    rw [hfail]
    refine mk_update ((hinv.undone hundone).idle_update hidle hidle' rfl) ?_ h.others
    intro id hid
    exact absurd (hidle'.symm.trans hid) (by simp)

/-- `wrapClientBacking` behind its `switch`. -/
theorem wrapClient (h : GmrBackings maxGmrIds a (Function.update surfaces i s))
    (hidle : s.backing.vtb.region = none) (env : BackingEnv) :
    GmrBackings maxGmrIds (s.wrapClient a env).2.1
      (Function.update surfaces i (s.wrapClient a env).2.2) := by
  have hplaced := h.kept (t := { s with backing := { s.backing with
    offset := pageResidue s.clientBacking.addr
    size := s.scale.byteSize } }) (.refl a) rfl rfl fun _ _ h => h
  rw [Surface.wrapClient]
  dsimp only
  split
  · exact hplaced.prepareBacking hidle env _ 1
  · exact hplaced

/-- A surface without a backing holds no region. -/
theorem idle_of_none (h : GmrBackings maxGmrIds a (Function.update surfaces i s))
    (hclass : s.classifyBacking = .none) : s.backing.vtb.region = none :=
  h.idle_of_md (Surface.md_of_classify_none hclass)

/-- **`wrapClientBacking`**. -/
theorem wrapClientBacking (h : GmrBackings maxGmrIds a (Function.update surfaces i s))
    (env : BackingEnv) :
    GmrBackings maxGmrIds (s.wrapClientBacking a env).2.1
      (Function.update surfaces i (s.wrapClientBacking a env).2.2) := by
  have hreleased := h.releaseBacking.wrapClient rfl env
  rw [Surface.wrapClientBacking]
  split
  · exact hreleased
  · split
    · exact h
    · exact hreleased
  · rename_i hclass
    exact h.wrapClient (h.idle_of_none hclass) env

/-- **`allocGMRBacking`** of a surface that holds no region. -/
theorem allocGMRBacking (h : GmrBackings maxGmrIds a (Function.update surfaces i s))
    (hidle : s.backing.vtb.region = none) (env : BackingEnv) :
    GmrBackings maxGmrIds (s.allocGMRBacking a env).2.1
      (Function.update surfaces i (s.allocGMRBacking a env).2.2) := by
  rw [Surface.allocGMRBacking]
  split
  · have hplaced := h.kept (t := { s with backing := { s.backing with offset := 0 } }) (.refl a)
      rfl rfl fun _ _ h => h
    exact hplaced.prepareBacking hidle env _ 0
  · exact h

/-- `allocBacking` behind its `switch`. -/
theorem allocNew (h : GmrBackings maxGmrIds a (Function.update surfaces i s))
    (hidle : s.backing.vtb.region = none) (hmd : s.backing.vtb.md = none) {env : BackingEnv}
    {ok : Bool} (halloc : s.allocNew a env = some (ok, b, t)) :
    GmrBackings maxGmrIds b (Function.update surfaces i t) := by
  have hrealloc : a.Undone (a.vramRealloc s.backing.self s.scale.byteSize env.vramFails).1 := by
    rw [Accel.vramRealloc]
    split <;> exact ⟨rfl, rfl, rfl, rfl, le_rfl, .inl rfl⟩
  rw [Surface.allocNew] at halloc
  split at halloc
  · cases halloc
  dsimp only at halloc
  have hsized := h.kept (t := { s with backing := { s.backing with
    size := s.scale.byteSize
    self := (a.vramRealloc s.backing.self s.scale.byteSize env.vramFails).2 } }) hrealloc rfl rfl
    fun _ _ h => h
  split at halloc
  · have hgmr := hsized.allocGMRBacking hidle env
    rw [Option.some.injEq] at halloc
    rw [halloc] at hgmr
    exact hgmr
  · cases halloc
    -- the id of the whole of VRAM is no id of a region
    refine mk_update ?_ ?_ h.others
    · exact (h.inv_update.undone hrealloc).idle_update hidle rfl hmd
    · rintro id ⟨⟩

/-- **`allocBacking`**. -/
theorem allocBacking (h : GmrBackings maxGmrIds a (Function.update surfaces i s))
    {env : BackingEnv} {ok : Bool} (halloc : s.allocBacking a env = some (ok, b, t)) :
    GmrBackings maxGmrIds b (Function.update surfaces i t) := by
  rw [Surface.allocBacking] at halloc
  split at halloc
  · have hwrap := h.wrapClientBacking env
    rw [Option.some.injEq] at halloc
    rw [halloc] at hwrap
    exact hwrap
  split at halloc
  · split at halloc
    · cases halloc
      exact h
    · have hmaps : GmrBackings maxGmrIds a (Function.update surfaces i
          ((s.releaseBackingMap 0).releaseBackingMap 1)) := h.kept (.refl a) rfl rfl fun _ _ h => h
      have hopened := h.opened i
      rw [Function.update_self] at hopened
      have hregion := VendorTransferBuffer.complete_region a hopened
      exact (hmaps.completed (t := { (s.releaseBackingMap 0).releaseBackingMap 1 with
        backing := { ((s.releaseBackingMap 0).releaseBackingMap 1).backing with
          vtb := (s.backing.vtb.complete s.provider a).2.discard } }) hregion rfl).allocNew
        hregion rfl halloc
  · exact h.releaseBacking.allocNew rfl rfl halloc
  · rename_i hclass
    exact h.allocNew (h.idle_of_none hclass) (Surface.md_of_classify_none hclass) halloc

/-- Before the first action no region is held. -/
theorem start (e : AccelSetup) (alloc : VMsvga2Allocator) {surfaces : ℕ → Surface}
    (hsurfaces : ∀ i, (surfaces i).backing = .init) :
    GmrBackings e.maxGmrIds (.start e alloc) surfaces := by
  have hregion : ∀ i, (surfaces i).backing.vtb.region = none := by
    intro i
    rw [hsurfaces]
    rfl
  have hpinned : ∀ i, (surfaces i).backing.vtb.pinned = none := fun i =>
    VendorTransferBuffer.pinned_of_region_none (hregion i)
  have hmarked : (Accel.start e alloc).markedIds e.maxGmrIds = ∅ := by
    refine Set.eq_empty_of_forall_notMem ?_
    rintro id ⟨hlt, hmax, hmask⟩
    simp only [Accel.start, hlt, decide_true, Bool.true_and, decide_eq_true_eq] at hmask
    omega
  refine ⟨⟨?_, ⟨?_, ?_⟩, ?_, ?_, ?_, ?_, ⟨?_, ?_⟩, ?_, ?_, ?_, ?_⟩, ?_⟩
  · intro id hlt hmax
    simp only [Accel.start, hlt, hmax, decide_true, Bool.and_self]
  · intro i id hi
    exact absurd ((hregion i).symm.trans hi) (by simp)
  · intro i j id hi
    exact absurd ((hregion i).symm.trans hi) (by simp)
  · rw [hmarked]
    rintro id ⟨⟩
  · intro i id hi
    exact absurd ((hregion i).symm.trans hi) (by simp)
  · intro i _
    rw [hsurfaces]
    rfl
  · rintro id ⟨⟩
  · intro i k hi
    exact absurd ((hpinned i).symm.trans hi) (by simp)
  · intro i j k hi
    exact absurd ((hpinned i).symm.trans hi) (by simp)
  · rintro k ⟨⟩
  · rintro k ⟨⟩
  · intro i id hi
    exact absurd ((hregion i).symm.trans hi) (by simp)
  · intro id
    exact .nil
  · intro i id hi
    exact absurd ((hregion i).symm.trans hi) (by simp)

end GmrBackings

/-- Every action of the system keeps the invariant. -/
theorem GmrBackings.action {maxGmrIds : ℕ} {w w' : World} {act : Action}
    (h : GmrBackings maxGmrIds w.accel w.surfaces) (hstep : w.step act = some w') :
    GmrBackings maxGmrIds w'.accel w'.surfaces := by
  refine World.memory_rule hstep h ?_ ?_ ?_ ?_ ?_
  · intro i a b s t hs hsteady
    refine hs.kept ⟨hsteady.gmrIdMask, hsteady.hasGmr, hsteady.gmrs, hsteady.prepared,
      hsteady.nextId, .inl hsteady.log⟩ hsteady.md hsteady.gmrId ?_
    intro _ _ hprovider
    rw [hsteady.provider, hprovider]
  · intro i op u env ok b t _ _ _ hu halloc
    exact hu.allocBacking halloc
  · intro i a s hs
    refine hs.releaseBacking.kept (.refl _) rfl rfl ?_
    rintro id ⟨⟩
  · intro i a s screenInfo hs _
    exact hs.kept (.refl a) rfl rfl fun _ _ _ => rfl
  · intro ptr k v vram _
    exact ⟨h.inv.undone ⟨rfl, rfl, rfl, rfl, le_rfl, .inl rfl⟩, h.opened⟩

/-! ### Runs -/

/-- An accelerator and its open surfaces. -/
structure Backings where
  accel : Accel
  surfaces : ℕ → Surface

/-- The operations on backings, and what happens between them. -/
inductive BackingAction
  | wrapClientBacking (i : ℕ) (env : BackingEnv)
  | allocBacking (i : ℕ) (env : BackingEnv)
  | allocGMRBacking (i : ℕ) (env : BackingEnv)
  | releaseBacking (i : ℕ)
  /-- A surface gets the geometry, the client backing and all else of `t` but its backing, of
  which only the maps and the mark of the transfer buffer change; `n` numbers are used. -/
  | other (i : ℕ) (t : Surface) (n : ℕ)

namespace Backings

/-- The state after a function has been called for surface `i`. -/
def after (w : Backings) (i : ℕ) (r : Bool × Accel × Surface) : Backings :=
  ⟨r.2.1, Function.update w.surfaces i r.2.2⟩

/-- The step function. `allocBacking` calls `allocGMRBacking` only when the surface has no
backing, and nothing else calls it. -/
def step (w : Backings) : BackingAction → Option Backings
  | .wrapClientBacking i env => some (w.after i ((w.surfaces i).wrapClientBacking w.accel env))
  | .allocBacking i env => ((w.surfaces i).allocBacking w.accel env).map (w.after i)
  | .allocGMRBacking i env =>
      if (w.surfaces i).isBackingValid then none
      else some (w.after i ((w.surfaces i).allocGMRBacking w.accel env))
  | .releaseBacking i => some (w.after i (true, (w.surfaces i).releaseBacking w.accel))
  | .other i t n =>
      some (w.after i (true, { w.accel with nextId := w.accel.nextId + n }, { t with
        provider := true
        backing := { (w.surfaces i).backing with
          map0 := t.backing.map0
          map1 := t.backing.map1
          vtb := { (w.surfaces i).backing.vtb with gartPtr := t.backing.vtb.gartPtr } } }))

/-- The start: any number of open surfaces without a backing. -/
def start (a : Accel) : Backings := ⟨a, fun _ => { Surface.init with provider := true }⟩

end Backings

/-- The transfer buffer holds the region `id`: its descriptor is prepared, and the device knows
the region as the memory of this descriptor. -/
def VendorTransferBuffer.Holds (vtb : VendorTransferBuffer) (a : Accel) (id : ℕ) : Prop :=
  vtb.region = some id ∧
    ∃ md, vtb.md = some md ∧ a.prepared md.id = true ∧ a.gmrs id = some md

/-- The GMR ids belong to the transfer buffers of the surfaces. -/
structure GmrIdsOwned (maxGmrIds : ℕ) (a : Accel) (surfaces : ℕ → Surface) : Prop where
  /-- The ids that are marked are those of the prepared buffers. -/
  marked : a.markedIds maxGmrIds = {id | ∃ i, (surfaces i).backing.vtb.Holds a id}
  /-- The device knows no other regions. -/
  defined : a.definedIds = a.markedIds maxGmrIds
  unique : ∀ i j id, (surfaces i).backing.vtb.region = some id →
    (surfaces j).backing.vtb.region = some id → i = j
  /-- Every time an id is taken it is destroyed, if it was defined, and freed once. -/
  once : ∀ id, Ledger id (eventsOf id a.log) (a.gmrs id).isSome

/-- The invariant says that every id in use is that of one surface's region. -/
theorem GmrBackings.gmrIdsOwned {maxGmrIds : ℕ} {a : Accel} {surfaces : ℕ → Surface}
    (h : GmrBackings maxGmrIds a surfaces) : GmrIdsOwned maxGmrIds a surfaces := by
  have hholds : ∀ i id, (surfaces i).backing.vtb.region = some id →
      (surfaces i).backing.vtb.Holds a id := by
    intro i id hregion
    obtain ⟨md, hmd, hgmr⟩ := h.inv.region i id hregion
    refine ⟨hregion, md, hmd, ?_, hgmr⟩
    exact h.inv.pinned.mem (VendorTransferBuffer.pinned_of_region hregion hmd)
  refine ⟨?_, ?_, ?_, h.inv.ledger⟩
  · ext id
    refine (h.inv.held.mem_iff h.inv.noLeak).trans (exists_congr fun i => ?_)
    exact ⟨hholds i id, fun hi => hi.1⟩
  · ext id
    constructor
    · intro hid
      obtain ⟨i, hi⟩ := h.inv.defined id hid
      exact h.inv.held.mem hi
    · intro hid
      obtain ⟨i, hi⟩ := h.inv.noLeak id hid
      obtain ⟨md, -, hgmr⟩ := h.inv.region i id hi
      rw [Accel.definedIds, Set.mem_ofPred_eq, hgmr]
      rfl
  · intro i j id hi hj
    exact h.inv.held.unique hi hj

/-- Every operation keeps the invariant. -/
theorem GmrBackings.step {maxGmrIds : ℕ} {w w' : Backings} {act : BackingAction}
    (h : GmrBackings maxGmrIds w.accel w.surfaces) (hstep : w.step act = some w') :
    GmrBackings maxGmrIds w'.accel w'.surfaces := by
  have hself : ∀ i, GmrBackings maxGmrIds w.accel
      (Function.update w.surfaces i (w.surfaces i)) := by
    intro i
    rw [Function.update_eq_self]
    exact h
  cases act with
  | wrapClientBacking i env =>
      cases hstep
      exact (hself i).wrapClientBacking env
  | allocBacking i env =>
      obtain ⟨⟨ok, b, t⟩, halloc, rfl⟩ := Option.map_eq_some_iff.mp hstep
      exact (hself i).allocBacking halloc
  | allocGMRBacking i env =>
      rw [Backings.step] at hstep
      split at hstep
      · cases hstep
      · rename_i hinvalid
        cases hstep
        refine (hself i).allocGMRBacking ((hself i).idle_of_md ?_) env
        cases hmd : (w.surfaces i).backing.vtb.md with
        | none => rfl
        | some md => simp [Surface.isBackingValid, hmd] at hinvalid
  | releaseBacking i =>
      cases hstep
      exact (hself i).releaseBacking
  | other i t n =>
      cases hstep
      exact (hself i).kept ⟨rfl, rfl, rfl, rfl, Nat.le_add_right _ _, .inl rfl⟩ rfl rfl
        fun _ _ _ => rfl

/-- **The GMR ids** belong to the transfer buffers of the surfaces, in every run of operations
on backings. -/
theorem gmr_ids_owned {e : AccelSetup} {alloc : VMsvga2Allocator} {as : List BackingAction}
    {w : Backings} (h : Run Backings.step Always (.start (.start e alloc)) as w) :
    GmrIdsOwned e.maxGmrIds w.accel w.surfaces := by
  refine GmrBackings.gmrIdsOwned ?_
  refine h.invariant (I := fun w => GmrBackings e.maxGmrIds w.accel w.surfaces) ?_
    (.start e alloc fun _ => rfl)
  intro w act w' hw _ hstep
  exact hw.step hstep

/-- Two surfaces obtain buffers of the kernel, and the first is released. -/
def twoBuffers : List BackingAction :=
  [.allocBacking 0 willing, .allocBacking 1 willing, .releaseBacking 0]

/-- The one id that stays marked is that of the second surface. -/
theorem gmr_ids_owned_two : ∃ w, Run Backings.step Always
      (.start (.start smallAccel (setupAllocator freshAllocator twoPages).2)) twoBuffers w ∧
    w.accel.gmrIdMask 0 = false ∧ w.accel.gmrIdMask 1 = true ∧
    GmrIdsOwned 64 w.accel w.surfaces := by
  have heval : (twoBuffers.foldlM Backings.step
      (.start (.start smallAccel (setupAllocator freshAllocator twoPages).2))).map
        (fun w => (w.accel.gmrIdMask 0, w.accel.gmrIdMask 1)) = some (false, true) := by
    decide +kernel
  obtain ⟨w, hfold, hend⟩ := Option.map_eq_some_iff.mp heval
  obtain ⟨hfirst, hsecond⟩ := Prod.mk.inj hend
  exact ⟨w, run_of_foldlM hfold, hfirst, hsecond, gmr_ids_owned (run_of_foldlM hfold)⟩

end DockerMacos
