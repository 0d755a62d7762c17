import DockerMacos.Accel
import DockerMacos.Ownership
import Mathlib.Tactic.Simps.Basic

/-!
# Ownership of GMR Ids

Between two operations a transfer buffer either is idle or holds a region: its descriptor is
prepared, and the device knows the region under the buffer's id. `GmrInv` says so for any
number of transfer buffers of one accelerator, and that the accelerator, the device and the
system know of no other regions. `prepare` and `complete` are the only steps that change this,
and `prepare` takes back what it did when it fails half-way.

## Four places

That an id is in use is recorded four times: in the mask of the accelerator, in the device, in
the transfer buffer and in the log. An operation changes one after the other, and the invariant
speaks of the moments between operations, when they agree.

## Steps

Three lemmas say what an operation on a transfer buffer does to the whole: it defines a region
under a new id, releases the one that it has, or fails and takes back what it did. The functions
of the surfaces are put together from these.

## Main results

* `findBit_spec`: an id that `AllocGMRID` takes was not marked.
* `prepare_cases`: `prepare` defines a region under a new id, or leaves nothing behind.
* `GmrInv.define`, `GmrInv.release`, `GmrInv.undone`: the steps of a transfer buffer.
-/

namespace DockerMacos

/-! ### Ids -/

namespace Accel

/-- The bit that the search finds is clear and in the range. -/
theorem findBit_spec {mask : ℕ → Bool} {first count r : ℕ}
    (h : findBit mask first count = some r) :
    mask r = false ∧ first ≤ r ∧ r < first + count := by
  have hclear := List.find?_some h
  have hmem := List.mem_of_find?_eq_some h
  rw [List.mem_range'_1] at hmem
  refine ⟨?_, hmem⟩
  simpa only [Bool.not_eq_true'] using hclear

/-- The accelerator after the id `r` has been taken. -/
def takeId (a : Accel) (r : ℕ) : Accel :=
  { a with
    gmrIdMask := Function.update a.gmrIdMask r true
    gmrIdIdx := r / 64
    log := .alloc r :: a.log }

/-- `AllocGMRID` gives an invalid id, or one that was not marked. -/
theorem allocGMRID_cases (a : Accel) :
    a.allocGMRID = (svgaIdInvalid, { a with gmrIdIdx := 2 }) ∨
      ∃ r, r < numGmrIds ∧ a.gmrIdMask r = false ∧ a.allocGMRID = (r, a.takeId r) := by
  rw [allocGMRID]
  cases hfind : findBit a.gmrIdMask (64 * a.gmrIdIdx) (numGmrIds - 64 * a.gmrIdIdx) with
  | none => exact Or.inl rfl
  | some r =>
      obtain ⟨hclear, hfirst, hpast⟩ := findBit_spec hfind
      exact Or.inr ⟨r, by omega, hclear, rfl⟩

end Accel

/-- `SVGA_ID_INVALID` is no id. -/
@[simp] theorem isIdValid_invalid : isIdValid svgaIdInvalid = false := rfl

/-- Nor is the id of VRAM one of a region. -/
@[simp] theorem isIdValid_gmrVram : isIdValid gmrVram = false := rfl

/-- All ids of the bitmap are. -/
theorem isIdValid_of_lt {id : ℕ} (h : id < Accel.numGmrIds) : isIdValid id = true := by
  simp only [Accel.numGmrIds] at h
  simp only [isIdValid, decide_eq_true_eq]
  omega

/-! ### Transfer buffers -/

namespace VendorTransferBuffer

/-- The id of the region that a transfer buffer holds. -/
def region (vtb : VendorTransferBuffer) : Option ℕ :=
  if isIdValid vtb.gmrId then some vtb.gmrId else none

/-- The number of the descriptor that a transfer buffer has prepared. -/
def pinned (vtb : VendorTransferBuffer) : Option ℕ :=
  if isIdValid vtb.gmrId then vtb.md.map (·.id) else none

/-- A buffer has a region when its id is valid. -/
theorem region_eq_some {vtb : VendorTransferBuffer} {id : ℕ} :
    vtb.region = some id ↔ isIdValid id = true ∧ vtb.gmrId = id := by
  rw [region]
  split
  · rename_i hvalid
    constructor
    · rintro ⟨⟩
      exact ⟨hvalid, rfl⟩
    · rintro ⟨-, rfl⟩
      rfl
  · rename_i hvalid
    constructor
    · rintro ⟨⟩
    · rintro ⟨h, rfl⟩
      exact absurd h hvalid

/-- It has none when the id is not. -/
theorem region_eq_none {vtb : VendorTransferBuffer} :
    vtb.region = none ↔ isIdValid vtb.gmrId = false := by
  rw [region]
  cases isIdValid vtb.gmrId <;> simp

/-- Without a region nothing is pinned. -/
theorem pinned_of_region_none {vtb : VendorTransferBuffer} (h : vtb.region = none) :
    vtb.pinned = none := by
  rw [pinned, region_eq_none.mp h]
  rfl

/-- With a region the memory of the buffer is pinned. -/
theorem pinned_of_region {vtb : VendorTransferBuffer} {id : ℕ} {md : MemoryDescriptor}
    (h : vtb.region = some id) (hmd : vtb.md = some md) : vtb.pinned = some md.id := by
  obtain ⟨hvalid, rfl⟩ := region_eq_some.mp h
  rw [pinned, hvalid, hmd]
  rfl

end VendorTransferBuffer

/-- The accelerator after a descriptor has been prepared and its region defined. -/
@[simps]
def Accel.defineRegion (a : Accel) (id : ℕ) (md : MemoryDescriptor) : Accel :=
  { a with
    gmrIdMask := Function.update a.gmrIdMask id true
    gmrIdIdx := id / 64
    gmrs := Function.update a.gmrs id (some md)
    prepared := Function.update a.prepared md.id true
    log := .define id :: .alloc id :: a.log }

/-- The accelerator after a region has been destroyed and its descriptor completed. -/
@[simps]
def Accel.releaseRegion (a : Accel) (id : ℕ) (md : MemoryDescriptor) : Accel :=
  { a with
    gmrIdMask := Function.update a.gmrIdMask id false
    gmrIdIdx := min (id / 64) a.gmrIdIdx
    gmrs := Function.update a.gmrs id none
    prepared := Function.update a.prepared md.id false
    log := .free id :: .destroy id :: a.log }

/-- Nothing is left of an attempt to define a region but, in the log, an id that was taken and
given back. -/
structure Accel.Undone (a b : Accel) : Prop where
  gmrIdMask : b.gmrIdMask = a.gmrIdMask
  hasGmr : b.hasGmr = a.hasGmr
  gmrs : b.gmrs = a.gmrs
  prepared : b.prepared = a.prepared
  nextId : a.nextId ≤ b.nextId
  log : b.log = a.log ∨
    ∃ id, a.gmrIdMask id = false ∧ id < numGmrIds ∧ b.log = .free id :: .alloc id :: a.log

/-- Nothing attempted, nothing left. -/
theorem Accel.Undone.refl (a : Accel) : a.Undone a :=
  ⟨rfl, rfl, rfl, rfl, le_rfl, Or.inl rfl⟩

namespace Accel

/-- `createGMR` defines the region or changes nothing. -/
theorem createGMR_cases (a : Accel) (id : ℕ) (md : MemoryDescriptor) (created : IOReturn) :
    (a.hasGmr = true ∧ a.createGMR id md created =
        (.success, { a with
          gmrs := Function.update a.gmrs id (some md)
          log := .define id :: a.log })) ∨
      ∃ rc, rc ≠ .success ∧ a.createGMR id md created = (rc, a) := by
  rw [createGMR]
  cases hgmr : a.hasGmr with
  | false => exact Or.inr ⟨.unsupported, by decide, rfl⟩
  | true =>
      by_cases hcreated : created = .success
      · refine Or.inl ⟨rfl, ?_⟩
        simp only [hcreated, ne_eq, not_true, Bool.not_true, Bool.false_eq_true, if_false]
      · refine Or.inr ⟨created, hcreated, ?_⟩
        simp only [ne_eq, hcreated, not_false_eq_true, if_true, Bool.not_true,
          Bool.false_eq_true, if_false]

/-- Memory that is prepared and completed is as before. -/
theorem completeMd_prepareMd (a : Accel) {md : MemoryDescriptor}
    (hfresh : a.prepared md.id = false) : (a.prepareMd md).completeMd md = a := by
  have hprep : Function.update (Function.update a.prepared md.id true) md.id false =
      a.prepared := by
    rw [Function.update_idem, ← hfresh, Function.update_eq_self]
  simp only [completeMd, prepareMd, hprep]

/-- What is left when an id is taken and given up again. -/
theorem undone_of_free (a : Accel) {id : ℕ} (hlt : id < numGmrIds)
    (hclear : a.gmrIdMask id = false) : a.Undone ((a.takeId id).freeGMRID id) := by
  have hdiv : ¬ id / 64 ≥ 2 := by
    simp only [numGmrIds] at hlt
    omega
  have hmask : Function.update (Function.update a.gmrIdMask id true) id false =
      a.gmrIdMask := by
    rw [Function.update_idem, ← hclear, Function.update_eq_self]
  simp only [freeGMRID, takeId, hdiv, if_false]
  exact ⟨hmask, rfl, rfl, rfl, le_rfl, Or.inr ⟨id, hclear, hlt, rfl⟩⟩

/-- `destroyGMR` on a device that has GMRs. -/
theorem destroyGMR_eq (a : Accel) (id : ℕ) (hgmr : a.hasGmr = true) :
    a.destroyGMR id = (.success, { a with
      gmrs := Function.update a.gmrs id none
      log := .destroy id :: a.log }) := by
  rw [destroyGMR, if_neg (by rw [hgmr]; decide)]

end Accel

namespace VendorTransferBuffer

/-- **`prepare`** of an idle transfer buffer with a new descriptor defines a region under an id
that was not marked, or fails and leaves nothing behind. -/
theorem prepare_cases {vtb : VendorTransferBuffer} {md : MemoryDescriptor} (provider : Bool)
    (a : Accel) (env : BackingEnv) (hmd : vtb.md = some md) (hidle : vtb.region = none)
    (hfresh : a.prepared md.id = false) :
    (∃ id, id < Accel.numGmrIds ∧ a.gmrIdMask id = false ∧ a.hasGmr = true ∧
        provider = true ∧ vtb.prepare provider a env =
          (.success, a.defineRegion id md, { vtb with gmrId := id })) ∨
      ∃ rc b vtb', rc ≠ .success ∧ vtb.prepare provider a env = (rc, b, vtb') ∧
        vtb'.region = none ∧ a.Undone b := by
  rw [prepare]
  cases provider with
  | false => exact Or.inr ⟨.notReady, a, vtb, by decide, rfl, hidle, Accel.Undone.refl a⟩
  | true =>
      simp only [Bool.not_true, Bool.false_eq_true, if_false, region_eq_none.mp hidle, hmd]
      rcases a.allocGMRID_cases with hnone | ⟨id, hlt, hclear, halloc⟩
      · simp only [hnone, isIdValid_invalid, Bool.not_false, if_true]
        exact Or.inr ⟨.noResources, _, _, by decide, rfl, rfl,
          ⟨rfl, rfl, rfl, rfl, le_rfl, Or.inl rfl⟩⟩
      simp only [halloc, isIdValid_of_lt hlt, Bool.not_true, Bool.false_eq_true, if_false]
      by_cases hprepares : env.prepares = .success
      · simp only [hprepares, ne_eq, not_true, if_false]
        rcases Accel.createGMR_cases ((a.takeId id).prepareMd md) id md env.created with
          ⟨hgmr, heq⟩ | ⟨rc, hrc, heq⟩
        · refine Or.inl ⟨id, hlt, hclear, hgmr, trivial, ?_⟩
          rw [heq]
          rfl
        · have hundone : a.Undone
              ((((a.takeId id).prepareMd md).completeMd md).freeGMRID id) := by
            rw [(a.takeId id).completeMd_prepareMd hfresh]
            exact a.undone_of_free hlt hclear
          refine Or.inr ⟨rc, _, { vtb with md := some md, gmrId := svgaIdInvalid }, hrc, ?_, rfl,
            hundone⟩
          rw [heq]
          cases rc with
          | success => exact absurd rfl hrc
          | _ => rfl
      · simp only [ne_eq, hprepares, not_false_eq_true, if_true]
        exact Or.inr ⟨env.prepares, _, _, hprepares, rfl, rfl, a.undone_of_free hlt hclear⟩

/-- `complete` of an idle transfer buffer does nothing. -/
theorem complete_idle {vtb : VendorTransferBuffer} (provider : Bool) (a : Accel)
    (hidle : vtb.region = none) : vtb.complete provider a = (a, vtb) := by
  rw [complete, region_eq_none.mp hidle, Bool.not_false, Bool.or_true, if_pos rfl]

/-- `complete` of a transfer buffer that holds a region. -/
theorem complete_held {vtb : VendorTransferBuffer} {a : Accel} {id : ℕ} {md : MemoryDescriptor}
    (hregion : vtb.region = some id) (hmd : vtb.md = some md) (hlt : id < Accel.numGmrIds)
    (hgmr : a.hasGmr = true) :
    vtb.complete true a = (a.releaseRegion id md, { vtb with gmrId := svgaIdInvalid }) := by
  obtain ⟨hvalid, rfl⟩ := region_eq_some.mp hregion
  have hdiv : ¬ vtb.gmrId / 64 ≥ 2 := by
    simp only [Accel.numGmrIds] at hlt
    omega
  simp only [complete, hvalid, hmd, a.destroyGMR_eq _ hgmr, Accel.completeMd, Accel.freeGMRID,
    hdiv, Bool.not_true, Bool.or_self, Bool.false_eq_true, if_false]
  rfl

end VendorTransferBuffer

/-! ### The log -/

/-- The id of an event. -/
def GmrEvent.id : GmrEvent → ℕ
  | .alloc id => id
  | .define id => id
  | .destroy id => id
  | .free id => id

/-- The events of one id, the latest first: every time it is taken it is given back once, and
every region that is defined in between is destroyed once before that. The flag tells whether
the id is taken and its region defined at present. -/
inductive Ledger (id : ℕ) : List GmrEvent → Bool → Prop
  | nil : Ledger id [] false
  | undone {l : List GmrEvent} : Ledger id l false → Ledger id (.free id :: .alloc id :: l) false
  | defined {l : List GmrEvent} : Ledger id l false → Ledger id (.define id :: .alloc id :: l) true
  | released {l : List GmrEvent} : Ledger id l true → Ledger id (.free id :: .destroy id :: l) false

/-- The events of an id in the log. -/
def eventsOf (id : ℕ) (log : List GmrEvent) : List GmrEvent := log.filter (·.id == id)

/-- Two events of the id itself. -/
theorem eventsOf_two {id : ℕ} {e f : GmrEvent} (log : List GmrEvent) (he : e.id = id)
    (hf : f.id = id) : eventsOf id (e :: f :: log) = e :: f :: eventsOf id log := by
  simp only [eventsOf, List.filter_cons, beq_iff_eq.mpr he, beq_iff_eq.mpr hf, if_true]

/-- Two events of another id do not change the ledger of an id. -/
theorem Ledger.other {id : ℕ} {e f : GmrEvent} {log : List GmrEvent} {b : Bool}
    (h : Ledger id (eventsOf id log) b) (he : e.id ≠ id) (hf : f.id ≠ id) :
    Ledger id (eventsOf id (e :: f :: log)) b := by
  simpa only [eventsOf, List.filter_cons, beq_eq_false_iff_ne.mpr he,
    beq_eq_false_iff_ne.mpr hf, Bool.false_eq_true, if_false] using h

/-! ### What is in use -/

/-- The ids that `AllocGMRID` has marked; those that the device does not have are marked from
the start. -/
def Accel.markedIds (a : Accel) (maxGmrIds : ℕ) : Set ℕ :=
  {id | id < numGmrIds ∧ id < maxGmrIds ∧ a.gmrIdMask id = true}

/-- The ids of the regions that the device knows. -/
def Accel.definedIds (a : Accel) : Set ℕ := {id | (a.gmrs id).isSome = true}

/-- The numbers of the prepared descriptors. -/
def Accel.preparedIds (a : Accel) : Set ℕ := {k | a.prepared k = true}

/-! ### Regions defined and released -/

namespace Accel

variable {maxGmrIds : ℕ} {a : Accel} {id : ℕ} {md : MemoryDescriptor}

/-- The id of a new region is marked. -/
theorem markedIds_defineRegion (hlt : id < numGmrIds) (hmax : id < maxGmrIds) :
    (a.defineRegion id md).markedIds maxGmrIds = insert id (a.markedIds maxGmrIds) := by
  ext r
  simp only [markedIds, defineRegion_gmrIdMask, Set.mem_ofPred_eq, Set.mem_insert_iff]
  by_cases hr : r = id
  · simp only [hr, hlt, hmax, Function.update_self, and_true, true_or]
  · simp only [hr, ne_eq, not_false_eq_true, Function.update_of_ne, false_or]

/-- The device has the new region. -/
theorem definedIds_defineRegion :
    (a.defineRegion id md).definedIds = insert id a.definedIds := by
  ext r
  simp only [definedIds, defineRegion_gmrs, Set.mem_ofPred_eq, Set.mem_insert_iff]
  by_cases hr : r = id
  · simp only [hr, Function.update_self, Option.isSome_some, true_or]
  · simp only [hr, ne_eq, not_false_eq_true, Function.update_of_ne, false_or]

/-- Its memory is prepared. -/
theorem preparedIds_defineRegion :
    (a.defineRegion id md).preparedIds = insert md.id a.preparedIds := by
  ext r
  simp only [preparedIds, defineRegion_prepared, Set.mem_ofPred_eq, Set.mem_insert_iff]
  by_cases hr : r = md.id
  · simp only [hr, Function.update_self, true_or]
  · simp only [hr, ne_eq, not_false_eq_true, Function.update_of_ne, false_or]

/-- The id of a region that is released is free. -/
theorem markedIds_releaseRegion :
    (a.releaseRegion id md).markedIds maxGmrIds = a.markedIds maxGmrIds \ {id} := by
  ext r
  simp only [markedIds, releaseRegion_gmrIdMask, Set.mem_ofPred_eq, Set.mem_sdiff,
    Set.mem_singleton_iff]
  by_cases hr : r = id
  · simp only [hr, Function.update_self, Bool.false_eq_true, and_false, not_true]
  · simp only [hr, not_false_eq_true, and_true, ne_eq, Function.update_of_ne]

/-- The device has it no more. -/
theorem definedIds_releaseRegion :
    (a.releaseRegion id md).definedIds = a.definedIds \ {id} := by
  ext r
  simp only [definedIds, releaseRegion_gmrs, Set.mem_ofPred_eq, Set.mem_sdiff,
    Set.mem_singleton_iff]
  by_cases hr : r = id
  · simp only [hr, Function.update_self, Option.isSome_none, Bool.false_eq_true, not_true,
      and_false]
  · simp only [hr, not_false_eq_true, and_true, ne_eq, Function.update_of_ne]

/-- Its memory is not prepared any more. -/
theorem preparedIds_releaseRegion :
    (a.releaseRegion id md).preparedIds = a.preparedIds \ {md.id} := by
  ext r
  simp only [preparedIds, releaseRegion_prepared, Set.mem_ofPred_eq, Set.mem_sdiff,
    Set.mem_singleton_iff]
  by_cases hr : r = md.id
  · simp only [hr, Function.update_self, Bool.false_eq_true, and_false, not_true]
  · simp only [hr, not_false_eq_true, and_true, ne_eq, Function.update_of_ne]

end Accel

/-! ### The invariant -/

/-- **The invariant** of an accelerator and its transfer buffers. -/
structure GmrInv (maxGmrIds : ℕ) (a : Accel) (vtbs : ℕ → VendorTransferBuffer) : Prop where
  /-- The ids that the device does not have stay marked. -/
  reserved : ∀ id, id < Accel.numGmrIds → maxGmrIds ≤ id → a.gmrIdMask id = true
  held : Held (a.markedIds maxGmrIds) fun i => (vtbs i).region
  noLeak : NoLeak (a.markedIds maxGmrIds) fun i => (vtbs i).region
  /-- A transfer buffer that holds a region has the descriptor that the device knows. -/
  region : ∀ i id, (vtbs i).region = some id →
    ∃ md, (vtbs i).md = some md ∧ a.gmrs id = some md
  idle : ∀ i, (vtbs i).region = none → (vtbs i).md = none
  /-- The device knows no other regions. -/
  defined : NoLeak a.definedIds fun i => (vtbs i).region
  pinned : Held a.preparedIds fun i => (vtbs i).pinned
  /-- No other descriptor is prepared. -/
  prepared : NoLeak a.preparedIds fun i => (vtbs i).pinned
  fresh : ∀ k, a.prepared k = true → k < a.nextId
  hasGmr : ∀ i id, (vtbs i).region = some id → a.hasGmr = true
  ledger : ∀ id, Ledger id (eventsOf id a.log) (a.gmrs id).isSome

namespace GmrInv

variable {maxGmrIds : ℕ} {a b : Accel} {vtbs : ℕ → VendorTransferBuffer} {i : ℕ}
  {v v' : VendorTransferBuffer}

/-- Functions of the transfer buffers when one of them is replaced. -/
theorem comp_update {α : Type} (f : VendorTransferBuffer → α)
    (vtbs : ℕ → VendorTransferBuffer) (i : ℕ) (v : VendorTransferBuffer) :
    (fun j => f (Function.update vtbs i v j)) = Function.update (fun j => f (vtbs j)) i (f v) :=
  funext fun j => Function.apply_update (fun _ => f) vtbs i v j

/-- An attempt that left nothing behind keeps the invariant. -/
theorem undone (h : GmrInv maxGmrIds a vtbs) (hu : a.Undone b) : GmrInv maxGmrIds b vtbs := by
  have hmarked : b.markedIds maxGmrIds = a.markedIds maxGmrIds := by
    simp only [Accel.markedIds, hu.gmrIdMask]
  have hdefined : b.definedIds = a.definedIds := by simp only [Accel.definedIds, hu.gmrs]
  have hprepared : b.preparedIds = a.preparedIds := by
    simp only [Accel.preparedIds, hu.prepared]
  refine ⟨?_, hmarked ▸ h.held, hmarked ▸ h.noLeak, ?_, h.idle, hdefined ▸ h.defined,
    hprepared ▸ h.pinned, hprepared ▸ h.prepared, ?_, ?_, ?_⟩
  · rw [hu.gmrIdMask]
    exact h.reserved
  · rw [hu.gmrs]
    exact h.region
  · intro k hk
    rw [hu.prepared] at hk
    exact lt_of_lt_of_le (h.fresh k hk) hu.nextId
  · rw [hu.hasGmr]
    exact h.hasGmr
  · intro id
    rw [hu.gmrs]
    rcases hu.log with hlog | ⟨r, hclear, hlt, hlog⟩
    · rw [hlog]
      exact h.ledger id
    · rw [hlog]
      by_cases hr : r = id
      · -- an id that is not marked has no region
        subst hr
        have hundefined : (a.gmrs r).isSome = false := by
          by_contra hsome
          obtain ⟨j, hj⟩ := h.defined r (Bool.eq_true_of_not_eq_false hsome)
          have := (h.held.mem hj).2.2
          rw [hclear] at this
          cases this
        have hledger := h.ledger r
        rw [hundefined] at hledger ⊢
        have hevents : eventsOf r (.free r :: .alloc r :: a.log) =
            .free r :: .alloc r :: eventsOf r a.log := eventsOf_two a.log rfl rfl
        exact hevents ▸ hledger.undone
      · exact (h.ledger id).other hr hr

/-- An idle transfer buffer may be replaced by another one. -/
theorem idle_update (h : GmrInv maxGmrIds a (Function.update vtbs i v)) (hv : v.region = none)
    (hv' : v'.region = none) (hmd : v'.md = none) :
    GmrInv maxGmrIds a (Function.update vtbs i v') := by
  have hregion : (fun j => (Function.update vtbs i v' j).region) =
      fun j => (Function.update vtbs i v j).region := by
    rw [comp_update, comp_update, hv, hv']
  have hpinned : (fun j => (Function.update vtbs i v' j).pinned) =
      fun j => (Function.update vtbs i v j).pinned := by
    rw [comp_update, comp_update, VendorTransferBuffer.pinned_of_region_none hv,
      VendorTransferBuffer.pinned_of_region_none hv']
  refine ⟨h.reserved, hregion ▸ h.held, hregion ▸ h.noLeak, ?_, ?_, hregion ▸ h.defined,
    hpinned ▸ h.pinned, hpinned ▸ h.prepared, h.fresh, ?_, h.ledger⟩
  · intro j id hj
    by_cases hji : j = i
    · rw [hji, Function.update_self, hv'] at hj
      cases hj
    · rw [Function.update_of_ne hji] at hj ⊢
      refine h.region j id ?_ |>.imp fun md hmd => ?_
      · rwa [Function.update_of_ne hji]
      · rwa [Function.update_of_ne hji] at hmd
  · intro j hj
    by_cases hji : j = i
    · rw [hji, Function.update_self]
      exact hmd
    · have := h.idle j
      rw [Function.update_of_ne hji] at this hj ⊢
      exact this hj
  · intro j id hj
    exact h.hasGmr j id (by rw [← hj]; exact (congrFun hregion j).symm)

/-- The region that a transfer buffer holds is one of the accelerator's own. -/
theorem region_lt (h : GmrInv maxGmrIds a vtbs) {id : ℕ} (hregion : (vtbs i).region = some id) :
    id < Accel.numGmrIds := (h.held.mem hregion).1

/-- A function of the transfer buffers when the same one is replaced again. -/
theorem comp_update_again {α : Type} (f : VendorTransferBuffer → α)
    (vtbs : ℕ → VendorTransferBuffer) (i : ℕ) (v : VendorTransferBuffer) {x : α} (hx : f v' = x) :
    (fun j => f (Function.update vtbs i v' j)) =
      Function.update (fun j => f (Function.update vtbs i v j)) i x := by
  rw [comp_update, comp_update, Function.update_idem, hx]

/-- A buffer without a region has no descriptor, when one of them is replaced. -/
theorem idle_replace (h : GmrInv maxGmrIds a (Function.update vtbs i v))
    (hv' : v'.region = none → v'.md = none) (j : ℕ) :
    (Function.update vtbs i v' j).region = none → (Function.update vtbs i v' j).md = none := by
  by_cases hji : j = i
  · rw [hji, Function.update_self]
    exact hv'
  · have := h.idle j
    rw [Function.update_of_ne hji] at this ⊢
    exact this

/-- A transfer buffer gives up its region. -/
theorem release (h : GmrInv maxGmrIds a (Function.update vtbs i v)) {id : ℕ}
    {md : MemoryDescriptor} (hregion : v.region = some id) (hmd : v.md = some md)
    (hv' : v'.region = none) (hmd' : v'.md = none) :
    GmrInv maxGmrIds (a.releaseRegion id md) (Function.update vtbs i v') := by
  have hregioni : (Function.update vtbs i v i).region = some id := by
    rw [Function.update_self, hregion]
  have hpinnedi : (Function.update vtbs i v i).pinned = some md.id := by
    rw [Function.update_self, VendorTransferBuffer.pinned_of_region hregion hmd]
  have hmem := h.held.mem hregioni
  have hregions := comp_update_again (·.region) vtbs i v hv'
  have hpinneds := comp_update_again (·.pinned) vtbs i v
    (VendorTransferBuffer.pinned_of_region_none hv')
  -- any other buffer that holds a region holds another one
  have hother : ∀ j r, (Function.update vtbs i v' j).region = some r →
      j ≠ i ∧ (Function.update vtbs i v j).region = some r ∧ r ≠ id := by
    intro j r hj
    have hji : j ≠ i := by
      rintro rfl
      rw [Function.update_self, hv'] at hj
      cases hj
    have hj' : (Function.update vtbs i v j).region = some r := by
      rw [Function.update_of_ne hji] at hj ⊢
      exact hj
    refine ⟨hji, hj', ?_⟩
    rintro rfl
    exact hji (h.held.unique hj' hregioni)
  constructor
  case reserved =>
    intro r hlt hmax
    have hr : r ≠ id := by
      rintro rfl
      exact absurd hmem.2.1 (not_lt.mpr hmax)
    rw [Accel.releaseRegion_gmrIdMask, Function.update_of_ne hr]
    exact h.reserved r hlt hmax
  case held =>
    rw [Accel.markedIds_releaseRegion, hregions]
    exact h.held.release hregioni
  case noLeak =>
    rw [Accel.markedIds_releaseRegion, hregions]
    exact h.noLeak.release hregioni
  case region =>
    intro j r hj
    obtain ⟨hji, hj', hr⟩ := hother j r hj
    obtain ⟨d, hd, hgmr⟩ := h.region j r hj'
    rw [Function.update_of_ne hji] at hd ⊢
    exact ⟨d, hd, by rw [Accel.releaseRegion_gmrs, Function.update_of_ne hr, hgmr]⟩
  case idle => exact h.idle_replace fun _ => hmd'
  case defined =>
    rw [Accel.definedIds_releaseRegion, hregions]
    exact h.defined.release hregioni
  case pinned =>
    rw [Accel.preparedIds_releaseRegion, hpinneds]
    exact h.pinned.release hpinnedi
  case prepared =>
    rw [Accel.preparedIds_releaseRegion, hpinneds]
    exact h.prepared.release hpinnedi
  case fresh =>
    intro k hk
    by_cases hkm : k = md.id
    · rw [hkm]
      exact h.fresh _ (h.pinned.mem hpinnedi)
    · rw [Accel.releaseRegion_prepared, Function.update_of_ne hkm] at hk
      exact h.fresh k hk
  case hasGmr =>
    intro j r hj
    exact h.hasGmr j r (hother j r hj).2.1
  case ledger =>
    intro r
    by_cases hr : r = id
    · subst hr
      obtain ⟨d, -, hgmr⟩ := h.region i r hregioni
      have hledger := h.ledger r
      rw [hgmr] at hledger
      rw [Accel.releaseRegion_gmrs, Function.update_self, Accel.releaseRegion_log]
      have hevents : eventsOf r (.free r :: .destroy r :: a.log) =
          .free r :: .destroy r :: eventsOf r a.log := eventsOf_two a.log rfl rfl
      exact hevents ▸ hledger.released
    · rw [Accel.releaseRegion_gmrs, Function.update_of_ne hr]
      exact (h.ledger r).other (Ne.symm hr) (Ne.symm hr)

/-- An idle transfer buffer defines a region for a new descriptor. -/
theorem define (h : GmrInv maxGmrIds a (Function.update vtbs i v)) {id : ℕ}
    {md : MemoryDescriptor} (hv : v.region = none) (hlt : id < Accel.numGmrIds)
    (hclear : a.gmrIdMask id = false) (hgmr : a.hasGmr = true)
    (hfresh : a.prepared md.id = false) (hnext : md.id < a.nextId) (hid : v'.gmrId = id)
    (hmd : v'.md = some md) :
    GmrInv maxGmrIds (a.defineRegion id md) (Function.update vtbs i v') := by
  have hmax : id < maxGmrIds := by
    by_contra hge
    have := h.reserved id hlt (not_lt.mp hge)
    rw [hclear] at this
    cases this
  have hregion : v'.region = some id :=
    VendorTransferBuffer.region_eq_some.mpr ⟨isIdValid_of_lt hlt, hid⟩
  have hregioni : (Function.update vtbs i v i).region = none := by rw [Function.update_self, hv]
  have hpinnedi : (Function.update vtbs i v i).pinned = none := by
    rw [Function.update_self, VendorTransferBuffer.pinned_of_region_none hv]
  have hregions := comp_update_again (·.region) vtbs i v hregion
  have hpinneds := comp_update_again (·.pinned) vtbs i v
    (VendorTransferBuffer.pinned_of_region hregion hmd)
  have hnew : id ∉ a.markedIds maxGmrIds := fun hmem => by
    have := hmem.2.2
    rw [hclear] at this
    cases this
  have hundefined : (a.gmrs id).isSome = false := by
    by_contra hsome
    obtain ⟨j, hj⟩ := h.defined id (Bool.eq_true_of_not_eq_false hsome)
    exact hnew (h.held.mem hj)
  have hunprepared : md.id ∉ a.preparedIds := fun hmem => by
    rw [Accel.preparedIds, Set.mem_ofPred_eq, hfresh] at hmem
    cases hmem
  constructor
  case reserved =>
    intro r hr hrmax
    have hne : r ≠ id := by
      rintro rfl
      exact absurd hmax (not_lt.mpr hrmax)
    rw [Accel.defineRegion_gmrIdMask, Function.update_of_ne hne]
    exact h.reserved r hr hrmax
  case held =>
    rw [Accel.markedIds_defineRegion hlt hmax, hregions]
    exact h.held.acquire hnew
  case noLeak =>
    rw [Accel.markedIds_defineRegion hlt hmax, hregions]
    exact h.noLeak.acquire hregioni
  case region =>
    intro j r hj
    by_cases hji : j = i
    · subst hji
      rw [Function.update_self] at hj ⊢
      obtain rfl := Option.some.inj (hregion.symm.trans hj)
      exact ⟨md, hmd, by rw [Accel.defineRegion_gmrs, Function.update_self]⟩
    · have hj' : (Function.update vtbs i v j).region = some r := by
        rw [Function.update_of_ne hji] at hj ⊢
        exact hj
      obtain ⟨d, hd, hd'⟩ := h.region j r hj'
      have hr : r ≠ id := by
        rintro rfl
        exact hnew (h.held.mem hj')
      rw [Function.update_of_ne hji] at hd ⊢
      exact ⟨d, hd, by rw [Accel.defineRegion_gmrs, Function.update_of_ne hr, hd']⟩
  case idle => exact h.idle_replace fun hnone => by cases hregion.symm.trans hnone
  case defined =>
    rw [Accel.definedIds_defineRegion, hregions]
    exact h.defined.acquire hregioni
  case pinned =>
    rw [Accel.preparedIds_defineRegion, hpinneds]
    exact h.pinned.acquire hunprepared
  case prepared =>
    rw [Accel.preparedIds_defineRegion, hpinneds]
    exact h.prepared.acquire hpinnedi
  case fresh =>
    intro k hk
    by_cases hkm : k = md.id
    · exact hkm ▸ hnext
    · rw [Accel.defineRegion_prepared, Function.update_of_ne hkm] at hk
      exact h.fresh k hk
  case hasGmr =>
    exact fun _ _ _ => hgmr
  case ledger =>
    intro r
    by_cases hr : r = id
    · subst hr
      have hledger := h.ledger r
      rw [hundefined] at hledger
      rw [Accel.defineRegion_gmrs, Function.update_self, Accel.defineRegion_log]
      have hevents : eventsOf r (.define r :: .alloc r :: a.log) =
          .define r :: .alloc r :: eventsOf r a.log := eventsOf_two a.log rfl rfl
      exact hevents ▸ hledger.defined
    · rw [Accel.defineRegion_gmrs, Function.update_of_ne hr]
      exact (h.ledger r).other (Ne.symm hr) (Ne.symm hr)

end GmrInv

end DockerMacos
