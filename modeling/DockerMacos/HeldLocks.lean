import DockerMacos.SurfaceMaps

/-!
# What a Held Lock Pins

A lock tells its holder an address: in the client's own memory, or in a map of the backing. The
lock bits keep a second lock of the same kind out, but every call that needs memory may exchange
the backing under a lock. This module says which calls do, and that no other does.

## Locks and pins

A surface can be locked for reading, for writing and by a 2D context, and the kinds do not keep
each other out. `Pin` is what a lock has handed out, and `Surface.displaces` lists the calls that
take it away: a new shape for the client's own memory; an exchange of the backing for a map; and
for the client's map also the black buffer of a video surface.

## What is still there

A map that has not been displaced is still one of the backing, and the backing is still
allocated to the surface (`Allocated`): in VRAM it is a live block. So what is pinned is not
given to another surface under the lock.

## Main results

* `keeps_map`, `keeps_client`: a call that does not displace what is pinned keeps it.
* `held_lock_pins`: so it is from every successful lock to its unlock.
-/

namespace DockerMacos

/-! ### Locks and pins -/

/-- A lock with its holder: the surface's own client, or a 2D context. -/
inductive Lock
  | read
  | write
  | context (c : ℕ)
  deriving DecidableEq

/-- What a lock pins: the client's own memory, or a map. -/
inductive Pin
  | client (addr : ℕ)
  | mapped (m : MemoryMap)

/-- The address of what is pinned. -/
def Pin.address : Pin → ℕ
  | .client addr => addr
  | .mapped m => m.address

/-- A context's lock hands out the second map, a client's the first. -/
def Lock.second : Lock → Bool
  | .context _ => true
  | _ => false

/-- The unlock of a context, which drops the second map. -/
def SurfaceOp.dropsMap : SurfaceOp → Bool
  | .contextUnlock => true
  | _ => false

namespace Surface

/-- The map that a lock hands out. -/
def mapOf (s : Surface) (lock : Lock) : Option MemoryMap :=
  if lock.second then s.backing.map1 else s.backing.map0

/-- What a lock that has succeeded pins. -/
def pin (s : Surface) (lock : Lock) : Option Pin :=
  if !lock.second && s.isClientBackingValid then some (.client s.clientBacking.addr)
  else (s.mapOf lock).map .mapped

/-- The address that a lock hands out. -/
def lockAddress (s : Surface) (lock : Lock) (pin : Pin) : ℕ :=
  if lock.second then pin.address else (pin.address + s.scale.byteOffset) % 2 ^ 64

/-- The client's own memory stays that of the surface: the new shape is refused early, or it
comes with the same memory. -/
def keepsClient (s : Surface) (args : ShapeArgs) : Bool :=
  match args.rgn with
  | none => true
  | some rgn =>
      args.rgnSize < rgn.size || args.rgnSize > 4096 ||
        ((s.videoMode || !rgn.isEmpty) && s.haveID && args.stored &&
          args.backing == s.clientBacking.addr && (s.newClientBacking rgn args).toBool)

/-- The call displaces what a lock pins. The client's own memory gives way to a new shape. A
map gives way when the backing is exchanged; the client's gives way to the black buffer, and a
context's is dropped by an unlock. -/
def displaces (s : Surface) (a : Accel) (lock : Lock) : Pin → SurfaceOp → Bool
  | .client _, .setShape args => !s.keepsClient args
  | .client _, _ => false
  | .mapped _, op =>
      (s.memoryCall op).isSome && (!s.settled || (!lock.second && s.tricks a op)) ||
        (lock.second && op.dropsMap)

end Surface

/-- The address that a lock returns. -/
def Outcome.address (o : Outcome) : Lock → Option ℕ
  | .context _ => o.memory.map (·.1)
  | _ => o.info.map (·.address)

namespace World

/-- The lock that an action asks for. -/
def takes (w : World) (act : Action) : Option (ℕ × Lock) :=
  match act, w.called act with
  | .client _ _, some (i, .readLock _ _) => some (i, .read)
  | .client _ _, some (i, .writeLock _ _) => some (i, .write)
  | .context c _, some (i, .contextLock _ _ _) => some (i, .context c)
  | _, _ => none

/-- The action ends the lock of surface `i`: it is the unlock of its holder, or it closes the
surface. -/
def releases (w : World) (i : ℕ) (lock : Lock) (act : Action) : Bool :=
  match act, w.called act with
  | _, some (j, .close) => j == i
  | _, some (j, .readUnlock) => j == i && lock == .read
  | _, some (j, .writeUnlock) => j == i && lock == .write
  | .context c _, some (j, .contextUnlock) => j == i && lock == .context c
  | _, _ => false

/-- The action displaces what the lock of surface `i` pins. -/
def displaces (w : World) (i : ℕ) (lock : Lock) (pin : Pin) (act : Action) : Bool :=
  match w.called act with
  | some (j, op) => j == i && (w.surfaces i).displaces w.accel lock pin op
  | none => false

/-- The memory is allocated to surface `i`: it is its backing, in VRAM a live block, or the
black buffer, which lives as long as its map. -/
def Allocated (w : World) (i : ℕ) (m : Memory) : Prop :=
  (∃ k, m = .trick k) ∨ (w.surfaces i).backingMemory = some m ∧
    ((w.surfaces i).backing.self ≠ 0 →
      (w.accel.vram.live (w.surfaces i).backing.self).isSome = true)

/-- What the lock of surface `i` pins is still there. -/
def Holds (w : World) (i : ℕ) (lock : Lock) : Pin → Prop
  | .client addr => (w.surfaces i).clientBacking.addr = addr
  | .mapped m => (w.surfaces i).mapOf lock = some m ∧ w.Allocated i m.memory

end World

/-! ### Calls -/

namespace Surface

variable {a b : Accel} {s t : Surface} {o : Outcome} {env : BackingEnv} {lock : Lock}

/-- Whether the memory is settled does not depend on the locks. -/
theorem settled_relocked (h : Relocked s t) : t.settled = s.settled := by
  obtain ⟨r, w, c, k, rfl⟩ := h
  rfl

/-- Nor does the choice of the black buffer. -/
theorem tricks_relocked (h : Relocked s t) (a : Accel) (op : SurfaceOp) :
    t.tricks a op = s.tricks a op := by
  obtain ⟨r, w, c, k, rfl⟩ := h
  cases op <;> rfl

/-- Where the client's own memory lies does not matter. -/
theorem displaces_client (addr : ℕ) (op : SurfaceOp) :
    s.displaces a lock (.client addr) op = s.displaces a lock (.client 0) op := by
  cases op <;> rfl

/-- **A call that does not displace a map** keeps it. -/
theorem keeps_map {m : MemoryMap} {op : SurfaceOp} (hm : s.mapOf lock = some m)
    (h : s.apply a op = some o) (hclose : op ≠ .close)
    (hkeeps : s.displaces a lock (.mapped m) op = false) : o.surface.mapOf lock = some m := by
  rw [displaces, Bool.or_eq_false_iff] at hkeeps
  obtain ⟨hmemory, hdrop⟩ := hkeeps
  rw [mapOf] at hm ⊢
  cases hcall : s.memoryCall op with
  | some env =>
      obtain ⟨u, ok, a₁, s₁, hlock, halloc, hmap⟩ := memory_mapping hcall h
      rw [hcall, Option.isSome_some, Bool.true_and, Bool.or_eq_false_iff, Bool.not_eq_false']
        at hmemory
      obtain ⟨hsettled, htricks⟩ := hmemory
      rw [allocBacking_settled ((settled_relocked hlock).trans hsettled)] at halloc
      cases halloc
      rw [← tricks_relocked hlock] at htricks
      have hbacking : u.backing = s.backing := hlock.quiet.backing
      rw [← hbacking] at hm
      split at hm
      · rename_i hsecond
        rw [if_pos hsecond]
        rcases hmap.second with hkept | ⟨hnone, -⟩
        · exact hkept.trans hm
        · rw [hnone] at hm
          cases hm
      · rename_i hsecond
        rw [if_neg hsecond]
        rw [Bool.eq_false_of_not_eq_true hsecond, Bool.not_false, Bool.true_and] at htricks
        rcases hmap.first with hkept | ⟨hnone, -⟩ | ⟨htrick, -⟩
        · exact hkept.trans hm
        · rw [hnone] at hm
          cases hm
        · rw [htricks] at htrick
          cases htrick
  | none =>
      by_cases hunlock : op = .contextUnlock
      · subst hunlock
        cases h
        split at hm
        · rename_i hsecond
          rw [hsecond] at hdrop
          cases hdrop
        · rename_i hsecond
          rw [if_neg hsecond]
          exact hm
      · obtain ⟨g, -, hbacking⟩ := (apply_change h).backing_kept hcall hunlock hclose
        rw [hbacking]
        exact hm

/-- What a shape makes of the client's memory depends on the depth alone. -/
theorem newClientBacking_congr (h : t.bytesPerPixel = s.bytesPerPixel)
    (rgn : IOAccelDeviceRegion) (args : ShapeArgs) :
    t.newClientBacking rgn args = s.newClientBacking rgn args := by
  rw [newClientBacking, newClientBacking, h]

/-- The client backing of a new shape starts where the arguments say. -/
theorem newClientBacking_addr {rgn : IOAccelDeviceRegion} {args : ShapeArgs}
    {client : Option ClientBacking} (h : s.newClientBacking rgn args = .ok client) :
    (∀ c, client = some c → c.addr = args.backing) ∧ (client = none → args.backing = 0) := by
  rw [newClientBacking] at h
  split at h
  · rename_i hnull
    cases h
    exact ⟨fun c hc => (by cases hc), fun _ => hnull⟩
  · dsimp only at h
    split_ifs at h
    all_goals
      cases h
      refine ⟨?_, fun hc => (by cases hc)⟩
      rintro c ⟨⟩
      rfl

/-- What a new shape depends on stays. -/
theorem clearLastRegion_same (s : Surface) : s.clearLastRegion.videoMode = s.videoMode ∧
    s.clearLastRegion.haveID = s.haveID ∧ s.clearLastRegion.bytesPerPixel = s.bytesPerPixel ∧
    s.clearLastRegion.wID = s.wID ∧ s.clearLastRegion.screenInfo = s.screenInfo := by
  rw [clearLastRegion]
  split <;> exact ⟨rfl, rfl, rfl, rfl, rfl⟩

/-- **A shape with the same memory** keeps it. -/
theorem setShape_keepsClient {args : ShapeArgs} (h : s.setShape a args = some o)
    (hkeeps : s.keepsClient args = true) :
    o.surface.clientBacking.addr = s.clientBacking.addr := by
  rw [setShape] at h
  rw [keepsClient] at hkeeps
  split at h
  · cases h
    rfl
  rename_i rgn hrgn
  rw [hrgn] at hkeeps
  dsimp only at hkeeps
  split at h
  · cases h
    rfl
  rename_i hsmall
  split at h
  · cases h
    rfl
  rename_i hlarge
  obtain ⟨hmode, hid, hbytes, -, -⟩ := s.clearLastRegion_same
  have hnew := newClientBacking_congr (s := s)
    (t := { s.clearLastRegion with clientBacking := .zero }) hbytes rgn args
  simp only [hsmall, hlarge, decide_false, Bool.false_or, Bool.and_eq_true, Bool.or_eq_true,
    Bool.not_eq_true', beq_iff_eq] at hkeeps
  obtain ⟨⟨⟨⟨hshown, hhaveID⟩, hstored⟩, haddr⟩, hok⟩ := hkeeps
  dsimp only at h hnew
  split at h
  · rename_i hempty
    rw [hmode] at hempty
    simp only [Bool.and_eq_true, Bool.not_eq_true'] at hempty
    rcases hshown with hvideo | hfull
    · rw [hvideo] at hempty
      cases hempty.1
    · rw [hfull] at hempty
      cases hempty.2
  split at h
  · rename_i hnoID
    rw [hid, hhaveID] at hnoID
    cases hnoID
  split at h
  · rename_i rc hclient
    rw [← hnew, hclient] at hok
    cases hok
  · rename_i client hclient
    obtain ⟨hsome, hnone⟩ := newClientBacking_addr hclient
    rw [if_neg (by rw [hstored]; decide)] at h
    obtain ⟨⟨b, v⟩, hshape, heq⟩ := Option.map_eq_some_iff.mp h
    cases heq
    obtain ⟨-, video, rfl⟩ := videoReshape_kept hshape
    have hrecord : ∀ u : Surface, u.clientBacking.addr = 0 →
        (u.recordClientBacking client).clientBacking.addr = args.backing := by
      intro u hu
      cases client with
      | none => exact hu.trans (hnone rfl).symm
      | some c => exact hsome c rfl
    rw [← haddr]
    split
    · exact hrecord _ rfl
    · exact hrecord _ rfl

/-- What the driver knows of the client's own memory is kept. -/
theorem keeps_client {addr : ℕ} {op : SurfaceOp} (hc : s.clientBacking.addr = addr)
    (h : s.apply a op = some o) (hkeeps : s.displaces a lock (.client addr) op = false) :
    o.surface.clientBacking.addr = addr := by
  by_cases hshape : ∀ args, op ≠ .setShape args
  · rw [apply_client h hshape]
    exact hc
  · obtain ⟨args, hop⟩ := not_forall.mp hshape
    rw [not_not] at hop
    subst hop
    rw [displaces, Bool.not_eq_false'] at hkeeps
    exact (setShape_keepsClient h hkeeps).trans hc

/-! ### Locks that succeed -/

/-- A lock through the first map returns the address that it pins. -/
theorem locked_pins (hlock : lock.second = false)
    (hmap : s.isClientBackingValid = false → s.backing.map0.isSome = true) :
    ∃ pin, (s.locked a).surface.pin lock = some pin ∧
      (s.locked a).address lock = some ((s.locked a).surface.lockAddress lock pin) := by
  have haddress : (s.locked a).address lock = some s.calculateSurfaceInformation.address := by
    cases lock with
    | context c => cases hlock
    | read => rfl
    | write => rfl
  rw [haddress]
  change ∃ pin, s.pin lock = some pin ∧ _ = some (s.lockAddress lock pin)
  simp only [pin, lockAddress, mapOf, calculateSurfaceInformation, hlock, Bool.not_false,
    Bool.true_and, Bool.false_eq_true, if_false]
  cases hclient : s.isClientBackingValid with
  | true => exact ⟨.client s.clientBacking.addr, rfl, rfl⟩
  | false =>
      obtain ⟨m, hm⟩ := Option.isSome_iff_exists.mp (hmap hclient)
      rw [hm]
      exact ⟨.mapped m, rfl, rfl⟩

/-- `allocBacking` and the map after it leave a map. -/
theorem allocAndMap0_map (h : s.allocAndMap0 a env = some (true, b, t)) :
    t.backing.map0.isSome = true := by
  rw [allocAndMap0] at h
  split at h
  · rw [mapBacking0] at h
    split at h
    · rename_i hsome
      cases h
      exact hsome
    · obtain ⟨⟨m, a₁⟩, -, heq⟩ := Option.map_eq_some_iff.mp h
      obtain ⟨hm, heq⟩ := Prod.mk.inj heq
      cases heq
      exact hm
  · rename_i hfails
    exact absurd h (hfails b t)

/-- A lock that hands out the client's memory, or the first map once it is there. -/
theorem served_pins {f : Bool × Accel × Surface → Outcome} (hlock : lock.second = false)
    (hdone : ∀ b t, f (true, b, t) = t.locked b) (hfail : ∀ b t, (f (false, b, t)).ret ≠ .success)
    (h : (if s.isClientBackingValid = true then some (s.locked a)
      else (s.allocAndMap0 a env).map f) = some o) (hok : o.ret = .success) :
    ∃ pin, o.surface.pin lock = some pin ∧
      o.address lock = some (o.surface.lockAddress lock pin) := by
  split at h
  · rename_i hclient
    cases h
    exact locked_pins hlock fun hnone => by rw [hclient] at hnone; cases hnone
  · obtain ⟨⟨ok, b, t⟩, hmem, rfl⟩ := Option.map_eq_some_iff.mp h
    cases ok with
    | false => exact absurd hok (hfail b t)
    | true =>
        rw [hdone]
        exact locked_pins hlock fun _ => allocAndMap0_map hmem

/-- A read lock that succeeds pins the memory at the address that it returns. -/
theorem readLock_pins {infoOk : Bool} (h : s.readLock a infoOk env = some o)
    (hok : o.ret = .success) : ∃ pin, o.surface.pin .read = some pin ∧
      o.address .read = some (o.surface.lockAddress .read pin) := by
  rw [readLock] at h
  split at h
  · cases h
    cases hok
  split at h
  · cases h
    cases hok
  split at h
  · cases h
    cases hok
  · exact served_pins rfl (fun _ _ => rfl) (fun _ _ => by rintro ⟨⟩) h hok

/-- So does a write lock past its checks. -/
theorem writeLocked_pins (h : s.writeLocked a env = some o) (hok : o.ret = .success) :
    ∃ pin, o.surface.pin .write = some pin ∧
      o.address .write = some (o.surface.lockAddress .write pin) := by
  rw [writeLocked] at h
  exact served_pins rfl (fun _ _ => rfl) (fun _ _ => by rintro ⟨⟩) h hok

/-- A write lock that succeeds pins what it returns. -/
theorem writeLock_pins {infoOk : Bool} (h : s.writeLock a infoOk env = some o)
    (hok : o.ret = .success) : ∃ pin, o.surface.pin .write = some pin ∧
      o.address .write = some (o.surface.lockAddress .write pin) := by
  rw [writeLock] at h
  split at h
  · cases h
    cases hok
  split at h
  · cases h
    cases hok
  split at h
  · exact writeLocked_pins h hok
  split at h
  · cases h
    cases hok
  · exact writeLocked_pins h hok

/-- A context's lock pins the second map. -/
theorem contextLocked_pins (c : ℕ) (hmap : s.backing.map1.isSome = true) :
    ∃ pin, (s.contextLocked a).surface.pin (.context c) = some pin ∧
      (s.contextLocked a).address (.context c) =
        some ((s.contextLocked a).surface.lockAddress (.context c) pin) := by
  obtain ⟨m, hm⟩ := Option.isSome_iff_exists.mp hmap
  refine ⟨.mapped m, ?_, ?_⟩
  · change Option.map _ s.backing.map1 = _
    rw [hm]
    rfl
  · change some ((s.backing.map1.map (·.address)).getD 0) = _
    rw [hm]
    rfl

/-- The black buffer does not take the place of the second map. -/
theorem setupTrickBuffer_second (s : Surface) (a : Accel) (trick : Option (Option ℕ)) :
    (s.setupTrickBuffer a trick).2.backing.map1 = s.backing.map1 := by
  unfold setupTrickBuffer
  split
  · rfl
  split <;> rfl

/-- A context's lock that succeeds pins what it returns. -/
theorem contextLock_pins {argsOk : Bool} {trick : Option (Option ℕ)} (c : ℕ)
    (h : s.contextLock a argsOk env trick = some o) (hok : o.ret = .success) :
    ∃ pin, o.surface.pin (.context c) = some pin ∧
      o.address (.context c) = some (o.surface.lockAddress (.context c) pin) := by
  rw [contextLock] at h
  split at h
  · cases h
    cases hok
  split at h
  · cases h
    cases hok
  split at h
  · cases h
    cases hok
  split at h
  · cases h
  · cases h
    cases hok
  · rename_i b t hmem
    have hmap : t.backing.map1.isSome = true := by
      rw [allocAndMap1] at hmem
      split at hmem
      · rw [mapBacking1] at hmem
        split at hmem
        · rename_i hsome
          cases hmem
          exact hsome
        · obtain ⟨⟨m, a₁⟩, -, heq⟩ := Option.map_eq_some_iff.mp hmem
          obtain ⟨hm, heq⟩ := Prod.mk.inj heq
          cases heq
          exact hm
      · rename_i hfails
        exact absurd hmem (hfails b t)
    split at h
    · split at h
      · cases h
      split at h
      · obtain ⟨b', u, hset⟩ : ∃ b' u, t.setupTrickBuffer b trick = (b', u) := ⟨_, _, rfl⟩
        have hkept := setupTrickBuffer_second t b trick
        rw [hset] at h hkept
        cases h
        refine contextLocked_pins c ?_
        rw [show u.backing.map1 = t.backing.map1 from hkept]
        exact hmap
      · cases h
        exact contextLocked_pins c hmap
    · cases h
      exact contextLocked_pins c hmap

end Surface

/-! ### Runs -/

namespace World

/-- The outcome of a call of surface `i` is that of the surface. -/
theorem result_called {w w' : World} {act : Action} {i : ℕ} {op : SurfaceOp} {ret : IOReturn}
    {o : Outcome} (hcalled : w.called act = some (i, op))
    (h : w.result act = .ok w' ret (some o)) :
    (w.surfaces i).apply w.accel op = some o ∧ o.ret = ret ∧ w'.surfaces i = o.surface := by
  have hcall : ∀ {x : ℕ → Context2D}, { w with contexts := x }.call i op = .ok w' ret (some o) →
      (w.surfaces i).apply w.accel op = some o ∧ o.ret = ret ∧ w'.surfaces i = o.surface := by
    intro x hx
    rw [call] at hx
    split at hx
    · cases hx
    · rename_i o' happly
      cases hx
      exact ⟨happly, rfl, Function.update_self ..⟩
  cases act with
  | start => cases hcalled
  | write => cases hcalled
  | client j sop =>
      rw [called] at hcalled
      rw [result] at h
      split at hcalled
      · rename_i hmay
        cases hcalled
        rw [if_pos hmay] at h
        exact hcall (x := w.contexts) h
      · cases hcalled
  | context c cop =>
      change w.contextCalled c cop = _ at hcalled
      change w.contextCall c cop = _ at h
      rcases w.contextCall_cases c cop with ⟨j, sop, x, hcalled', heq⟩ | ⟨hcalled', -⟩
      · cases hcalled.symm.trans hcalled'
        exact hcall (heq.symm.trans h)
      · rw [hcalled] at hcalled'
        cases hcalled'

/-- A lock that succeeds pins something, and returns its address. -/
theorem takes_pins {w w₁ : World} {act : Action} {i : ℕ} {lock : Lock} {o : Outcome}
    (htakes : w.takes act = some (i, lock)) (h : w.result act = .ok w₁ .success (some o)) :
    w₁.surfaces i = o.surface ∧ ∃ pin, o.surface.pin lock = some pin ∧
      o.address lock = some (o.surface.lockAddress lock pin) := by
  unfold takes at htakes
  split at htakes
  · rename_i hcalled
    cases htakes
    obtain ⟨happly, hret, hw⟩ := result_called hcalled h
    exact ⟨hw, Surface.readLock_pins happly hret⟩
  · rename_i hcalled
    cases htakes
    obtain ⟨happly, hret, hw⟩ := result_called hcalled h
    exact ⟨hw, Surface.writeLock_pins happly hret⟩
  · rename_i hcalled
    cases htakes
    obtain ⟨happly, hret, hw⟩ := result_called hcalled h
    exact ⟨hw, Surface.contextLock_pins _ happly hret⟩
  · cases htakes

/-- **The invariant**: the maps are of the backings, and the blocks of VRAM are live. -/
structure MapsInv (w : World) : Prop where
  mapped : ∀ i, (w.surfaces i).Mapped
  blocks : VramBackings False w.accel w.surfaces

/-- **An action** keeps the invariant, whether or not its call fails. -/
theorem MapsInv.step {w w' : World} {act : Action} (h : w.MapsInv)
    (hstep : w.step act = some w') : w'.MapsInv :=
  ⟨Surface.Mapped.action h.mapped hstep, h.blocks.action (fun hfalse => hfalse.elim) hstep⟩

/-- It holds at the start, where nothing is mapped. -/
theorem MapsInv.start {z alloc : VMsvga2Allocator} {e : AccelSetup}
    (hsetup : setupAllocator z e.vram = (.success, alloc)) :
    (World.start (.start e alloc)).MapsInv :=
  ⟨fun _ => .of_none rfl, .start False hsetup⟩

/-- What is mapped is allocated. -/
theorem MapsInv.allocated {w : World} {i : ℕ} {lock : Lock} {m : MemoryMap} (h : w.MapsInv)
    (hm : (w.surfaces i).mapOf lock = some m) : w.Allocated i m.memory := by
  have hlive : (w.surfaces i).backing.self ≠ 0 →
      (w.accel.vram.live (w.surfaces i).backing.self).isSome = true := by
    intro hself
    rw [h.blocks.sized i hself]
    rfl
  rw [Surface.mapOf] at hm
  split at hm
  · exact .inr ⟨(h.mapped i).second m hm, hlive⟩
  · rcases (h.mapped i).first m hm with hmemory | htrick
    · exact .inr ⟨hmemory, hlive⟩
    · exact .inl htrick

/-- What a lock pins is there when it has succeeded. -/
theorem MapsInv.holds {w : World} {i : ℕ} {lock : Lock} {pin : Pin} (h : w.MapsInv)
    (hpin : (w.surfaces i).pin lock = some pin) : w.Holds i lock pin := by
  have hmapped : ((w.surfaces i).mapOf lock).map .mapped = some pin → w.Holds i lock pin := by
    intro hmap
    obtain ⟨m, hm, rfl⟩ := Option.map_eq_some_iff.mp hmap
    exact ⟨hm, h.allocated hm⟩
  rw [Surface.pin] at hpin
  split at hpin
  · cases hpin
    exact rfl
  · exact hmapped hpin

/-- An action that neither ends a lock nor displaces what it pins leaves it there. -/
theorem Holds.step {w w' : World} {act : Action} {i : ℕ} {lock : Lock} {pin : Pin}
    (h : w.Holds i lock pin) (hinv : w'.MapsInv) (hrelease : w.releases i lock act = false)
    (hkeeps : w.displaces i lock pin act = false) (hstep : w.step act = some w') :
    w'.Holds i lock pin := by
  -- the surface keeps what the driver knows of the pin
  have hsame : ∀ {t : Surface}, w'.surfaces i = t →
      (∀ m, (w.surfaces i).mapOf lock = some m → pin = .mapped m → t.mapOf lock = some m) →
      (∀ addr, (w.surfaces i).clientBacking.addr = addr → pin = .client addr →
        t.clientBacking.addr = addr) → w'.Holds i lock pin := by
    rintro t rfl hmap hclient
    cases pin with
    | client addr => exact hclient addr h rfl
    | mapped m =>
        have hm := hmap m h.1 rfl
        exact ⟨hm, hinv.allocated hm⟩
  have hframe : w'.surfaces i = w.surfaces i → w'.Holds i lock pin := fun heq =>
    hsame heq (fun m hm _ => hm) (fun addr haddr _ => haddr)
  obtain ⟨out, hmoved⟩ := step_moved hstep
  cases hmoved with
  | @called _ j op o x hcalled happly =>
      by_cases hj : j = i
      · subst hj
        rw [displaces, hcalled] at hkeeps
        dsimp only at hkeeps
        rw [beq_self_eq_true, Bool.true_and] at hkeeps
        have hclose : op ≠ .close := by
          rintro rfl
          simp [releases, hcalled] at hrelease
        refine hsame (Function.update_self ..) ?_ ?_
        · rintro m hm rfl
          exact Surface.keeps_map hm happly hclose hkeeps
        · rintro addr haddr rfl
          exact Surface.keeps_client haddr happly hkeeps
      · exact hframe (Function.update_of_ne (Ne.symm hj) _ _)
  | @started j screenInfo env o hstarted haddr hstart =>
      by_cases hj : j = i
      · subst hj
        obtain ⟨-, hquiet⟩ := Surface.start_tested hstart
        obtain ⟨⟨b, t⟩, hstart3D, heq⟩ := Option.map_eq_some_iff.mp hstart
        cases heq
        refine hsame (Function.update_self ..) ?_ ?_
        · intro m hm _
          rw [Surface.mapOf, hquiet.backing]
          exact hm
        · intro addr hc _
          rw [Surface.start3D_client hstart3D]
          exact hc
      · exact hframe (Function.update_of_ne (Ne.symm hj) _ _)
  | wrote hwrite => exact hframe rfl
  | stayed x hcalled => exact hframe rfl

end World

/-- **A held lock** pins the memory whose address it has returned, until its unlock or the close
of the surface, in every run of actions that do not displace it. -/
theorem held_lock_pins {z alloc : VMsvga2Allocator} {e : AccelSetup}
    (hsetup : setupAllocator z e.vram = (.success, alloc)) {as : List Action} {w w₁ : World}
    (h : Run World.step Always (.start (.start e alloc)) as w) {act : Action} {i : ℕ}
    {lock : Lock} {o : Outcome} (htakes : w.takes act = some (i, lock))
    (hlock : w.result act = .ok w₁ .success (some o)) :
    ∃ pin, o.address lock = some (o.surface.lockAddress lock pin) ∧ w₁.Holds i lock pin ∧
      ∀ {bs : List Action} {w₂ : World},
        Run World.step (fun w act => w.releases i lock act = false ∧
          w.displaces i lock pin act = false) w₁ bs w₂ → w₂.Holds i lock pin := by
  have hinv : w.MapsInv :=
    h.invariant (I := World.MapsInv) (fun w act w' hw _ hstep => hw.step hstep) (.start hsetup)
  have hinv₁ : w₁.MapsInv := by
    have hstep : w.step act = some w₁ := by rw [World.step, hlock]
    exact hinv.step hstep
  obtain ⟨hsurface, pin, hpin, haddress⟩ := World.takes_pins htakes hlock
  have hholds : w₁.Holds i lock pin := hinv₁.holds (by rw [hsurface, hpin])
  refine ⟨pin, haddress, hholds, fun {bs w₂} hrun => ?_⟩
  have hboth : w₂.MapsInv ∧ w₂.Holds i lock pin := by
    refine hrun.invariant (I := fun w => w.MapsInv ∧ w.Holds i lock pin) ?_ ⟨hinv₁, hholds⟩
    rintro w act w' ⟨hw, hpinned⟩ ⟨hrelease, hkeeps⟩ hstep
    have hw' := hw.step hstep
    exact ⟨hw', hpinned.step hw' hrelease hkeeps hstep⟩
  exact hboth.2

/-- The state and the outcome of a call that succeeds. -/
def Result.success : Result → Option (World × Outcome)
  | .ok w .success (some o) => some (w, o)
  | _ => none

/-- A call that succeeds has an outcome. -/
theorem Result.success_eq {r : Result} {w : World} {o : Outcome}
    (h : r.success = some (w, o)) : r = .ok w .success (some o) := by
  unfold success at h
  split at h
  · cases h
    rfl
  · cases h

/-- A surface of 16 by 16 pixels. -/
def openSession : List Action := lockSession.take 3

/-- Its read lock. -/
def firstLock : Action := .client 0 (.readLock true willing)

/-- Under the lock a context takes the surface, locks it and unlocks it. -/
def underLock : List Action :=
  [.context 0 (.setSurface true 7 true false false true (some 0) ⟨true, true, false, .success⟩),
    .context 0 (.lockMemory true willing none),
    .context 0 .unlockMemory]

/-- The map of the read lock stays while the context comes and goes. -/
theorem held_lock_pins_session : ∃ w w₁ o w₂ pin,
    Run World.step Always smallWorld openSession w ∧
      w.result firstLock = .ok w₁ .success (some o) ∧
      Run World.step (fun w act => w.releases 0 .read act = false) w₁ underLock w₂ ∧
      o.address .read = some (o.surface.lockAddress .read pin) ∧ w₂.Holds 0 .read pin := by
  have heval : ((openSession.foldlM World.step smallWorld).bind fun w =>
      (w.result firstLock).success.bind fun r =>
        (underLock.foldlM (guarded World.step fun w act => w.releases 0 .read act = false ∧
            w.displaces 0 .read (.client 0) act = false ∧
            w.displaces 0 .read (.mapped ⟨0, .vram 0, 0⟩) act = false) r.1).map fun _ =>
          w.takes firstLock) = some (some (0, .read)) := by
    decide +kernel
  obtain ⟨w, hfold, heval⟩ := Option.bind_eq_some_iff.mp heval
  obtain ⟨⟨w₁, o⟩, hsuccess, heval⟩ := Option.bind_eq_some_iff.mp heval
  obtain ⟨w₂, hfold', htakes⟩ := Option.map_eq_some_iff.mp heval
  have hlock := Result.success_eq hsuccess
  have hrun := run_of_guarded hfold'
  obtain ⟨pin, haddress, -, hpins⟩ :=
    held_lock_pins smallAccel_setup (run_of_foldlM hfold) htakes hlock
  refine ⟨w, w₁, o, w₂, pin, run_of_foldlM hfold, hlock, hrun.mono fun _ _ h => h.1, haddress,
    hpins (hrun.mono ?_)⟩
  rintro v act ⟨hrelease, hclient, hmapped⟩
  refine ⟨hrelease, ?_⟩
  cases pin with
  | client addr =>
      rw [World.displaces] at hclient ⊢
      split at hclient
      · rw [Surface.displaces_client addr]
        exact hclient
      · rfl
  | mapped m => exact hmapped

/-- Under the lock the surface grows and is locked for writing. -/
def grownUnderLock : List Action :=
  [.client 0 (.setScale (some (⟨0, 0, 64, 64⟩, 64, 64))),
    .client 0 (.writeLock true willing)]

/-- The write lock exchanges the backing under the read lock. -/
theorem held_lock_broken : ∃ w w₁ o w₂ m,
    Run World.step Always smallWorld openSession w ∧ w.takes firstLock = some (0, .read) ∧
      w.result firstLock = .ok w₁ .success (some o) ∧
      o.surface.pin .read = some (.mapped m) ∧
      o.address .read = some (o.surface.lockAddress .read (.mapped m)) ∧
      Run World.step (fun w act => w.releases 0 .read act = false) w₁ grownUnderLock w₂ ∧
      ¬ w₂.Holds 0 .read (.mapped m) := by
  have heval : ((openSession.foldlM World.step smallWorld).bind fun w =>
      (w.result firstLock).success.bind fun r =>
        (grownUnderLock.foldlM (guarded World.step fun w act => w.releases 0 .read act = false)
            r.1).map fun w₂ =>
          ([decide (w.takes firstLock = some (0, .read)), r.2.surface.isClientBackingValid],
            [r.2.surface.backing.map0, (w₂.surfaces 0).backing.map0],
            [r.2.address .read,
              some (r.2.surface.lockAddress .read (.mapped ⟨0, .vram 0x100000, 0x7000⟩))])) =
      some ([true, false],
        [some ⟨0, .vram 0x100000, 0x7000⟩, some ⟨2, .buffer 1, 0x7000⟩],
        [some 0x7000, some 0x7000]) := by
    decide +kernel
  obtain ⟨w, hfold, heval⟩ := Option.bind_eq_some_iff.mp heval
  obtain ⟨⟨w₁, o⟩, hsuccess, heval⟩ := Option.bind_eq_some_iff.mp heval
  obtain ⟨w₂, hfold', heval⟩ := Option.map_eq_some_iff.mp heval
  simp only [Prod.mk.injEq, List.cons.injEq, Option.some.injEq, decide_eq_true_eq, and_true]
    at heval
  obtain ⟨⟨htakes, hclient⟩, ⟨hmap, hmap'⟩, haddress, hsame⟩ := heval
  refine ⟨w, w₁, o, w₂, ⟨0, .vram 0x100000, 0x7000⟩, run_of_foldlM hfold, htakes,
    Result.success_eq hsuccess, ?_, ?_, run_of_guarded hfold', ?_⟩
  · rw [Surface.pin, hclient]
    change o.surface.backing.map0.map Pin.mapped = _
    rw [hmap]
    rfl
  · rw [haddress, hsame]
  · rintro ⟨hheld, -⟩
    rw [show (w₂.surfaces 0).mapOf .read = (w₂.surfaces 0).backing.map0 from rfl, hmap'] at hheld
    cases hheld

end DockerMacos
