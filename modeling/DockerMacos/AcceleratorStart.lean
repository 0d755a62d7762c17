import DockerMacos.OwnedFields
import DockerMacos.Run
import DockerMacos.Vram

/-!
# Starting and Stopping the Accelerator

The accelerator (`AC/VMsvga2Accel.cpp`) looks for its framebuffer, and obtains a lock, an
allocator and the root of the surfaces when it is started. VRAM is mapped in the kernel, and
given to the allocator, when the first surface asks for it. The user clients that the
accelerator makes are handed on to the system, which releases them itself.

## What is owned

Every resource is a field (`AcceleratorField`), and the operations on fields are those of
`OwnedFields`: a field is assigned what a call returns, used, released and set to null, or
handed on. The start of the base class is a field as well, and so is the place that a user
client has below the accelerator: both are obtained by a call and must be given up by another.

## Ways out

`start` has eight places at which it can fail, and each of them goes to `stop` by a `goto`, with
what has been obtained so far. `newUserClient` has three. What the calls return is in
`AcceleratorEnv` and `UserClientEnv`, so that every way out is taken for some environment.

## Main results

* `AcceleratorDriver.start_tidy`, `AcceleratorDriver.stop_tidy`: one start, one stop.
* `AcceleratorDriver.newUserClient_ledger`: one user client, or the failure to make it.
* `accelerator_released`: any starts, calls and stops, in any order in which the system makes
  them: what has been obtained has been released once, but for the user clients.
-/

namespace DockerMacos

open OwnedFields

/-! ### The accelerator -/

/-- What the accelerator obtains; `service` is the start of its base class, `allocatorMap` is
what `Init` allocates, and `attachment` the place of a user client in the registry. -/
inductive AcceleratorField
  | service
  | iterator
  | framebuffer
  | iolock
  | allocator
  | allocatorMap
  | surfaceRoot
  | vramKernelMap
  | client
  | attachment
  deriving DecidableEq

instance : Fintype AcceleratorField where
  elems := {.service, .iterator, .framebuffer, .iolock, .allocator, .allocatorMap, .surfaceRoot,
    .vramKernelMap, .client, .attachment}
  complete f := by cases f <;> decide

/-- `vmw_options_ac`, as far as it decides about user clients. -/
structure AcceleratorOptions where
  surfaceConnect : Bool
  glContext : Bool
  context2D : Bool
  dvdContext : Bool

/-- A client of the provider. -/
structure ProviderClient where
  isVMsvga2 : Bool
  supportsAccel : Bool

/-- What `start` finds. -/
structure AcceleratorEnv where
  /-- The provider is a PCI device. -/
  isPci : Bool
  superStart : Bool
  options : AcceleratorOptions
  getProvider : Bool
  iterator : Bool
  /-- The clients of the provider, in order. -/
  clients : List ProviderClient
  iolock : Bool
  /-- The memory of VRAM. -/
  vram : Bool
  factory : Bool
  /-- `HaveGLBaseline()`. -/
  haveGLBaseline : Bool
  surfaceRoot : Bool

/-- What `newUserClient` finds. -/
structure UserClientEnv where
  type : ℕ
  /-- The place for the user client is not null. -/
  handler : Bool
  /-- `m_updating_ga` is not set, or it is the task. -/
  privileged : Bool
  setup : VramSetup
  withTask : Bool
  attach : Bool
  start : Bool

/-- The accelerator. -/
structure Accelerator where
  running : Bool
  driver : OwnedFields AcceleratorField
  options : AcceleratorOptions
  /-- Whether `m_vram` is set. -/
  vram : Bool
  alloc : VMsvga2Allocator

/-- The user clients that the options allow. -/
def AcceleratorOptions.allows (o : AcceleratorOptions) : ℕ → Bool
  | 0 => o.surfaceConnect
  | 1 => o.glContext
  | 2 => o.context2D
  | 3 => o.dvdContext
  | 4 => o.glContext
  | 5 => o.glContext
  | _ => false

namespace AcceleratorDriver

open AcceleratorField

/-- What the accelerator owns. -/
abbrev Driver := OwnedFields AcceleratorField

/-- `Cleanup`: the allocator releases its map with itself. -/
def cleanup (d : Driver) : Driver :=
  let d := ((d.drop surfaceRoot).drop allocatorMap).drop allocator
  ((d.drop vramKernelMap).drop framebuffer).drop iolock

/-- `stop`. -/
def stop (d : Driver) : Driver := (cleanup d).drop service

/-- `findFramebuffer`: the first framebuffer that supports an accelerator is retained. -/
def findFramebuffer (d : Driver) (e : AcceleratorEnv) : IOReturn × Driver :=
  if !e.getProvider then (.notReady, d)
  else
    let d := d.fetch iterator e.iterator
    if (d.field iterator).isNone then (.notFound, d)
    else
      let d := d.touch iterator
      if e.clients.any fun c => c.isVMsvga2 && c.supportsAccel then
        (.success, (d.fetch framebuffer true).drop iterator)
      else (.notFound, d.drop iterator)

/-- The options after `start`: no OpenGL without the capabilities for it. -/
def startOptions (e : AcceleratorEnv) : AcceleratorOptions :=
  { e.options with glContext := e.options.glContext && e.haveGLBaseline }

/-- `start`. -/
def start (d : Driver) (e : AcceleratorEnv) : Bool × Driver :=
  if !e.isPci || !e.superStart then (false, d)
  else
    match findFramebuffer (d.fetch service true) e with
    | (.success, d) =>
        let d := d.fetch iolock e.iolock
        if (d.field iolock).isNone then (false, stop d)
        else
          let d := d.fetch allocator e.factory
          if (d.field allocator).isNone then (false, stop d)
          else
            let d := d.touch framebuffer
            if (startOptions e).glContext then (true, d.fetch surfaceRoot e.surfaceRoot)
            else (true, d)
    | (_, d) => (false, stop d)

/-- `Init` of the allocator at the address `p`, which releases an earlier map. -/
def initAllocator (d : Driver) (e : VramSetup) (p : ℕ) : Driver :=
  let d := d.touch allocator
  if p % 2 ^ minBits ≠ 0 then d
  else if e.bytes ≠ e.bytes % 2 ^ 32 then d
  else (d.drop allocatorMap).fetch allocatorMap e.mapAllocated

/-- `setupAllocator`. -/
def setupAllocator (r : Accelerator) (e : VramSetup) : IOReturn × Accelerator :=
  if (r.driver.field vramKernelMap).isSome then (.success, r)
  else if !r.vram then (.internalError, r)
  else
    match e.kernelMap with
    | none => (.internalError, { r with driver := r.driver.fetch vramKernelMap false })
    | some p =>
        let d := r.driver.fetch vramKernelMap true
        let d := if p = 0 ∨ e.bytes = 0 then d else initAllocator d e p
        let (rc, alloc) := DockerMacos.setupAllocator r.alloc e
        let d := if rc = .success then d else d.drop vramKernelMap
        (rc, { r with driver := d, alloc := alloc })

/-- `newUserClient` from `withTask` on. -/
def makeClient (d : Driver) (e : UserClientEnv) : IOReturn × Driver :=
  let d := d.fetch client e.withTask
  if (d.field client).isNone then (.noResources, d)
  else
    let d := (d.touch client).fetch attachment e.attach
    if (d.field attachment).isNone then (.internalError, d.drop client)
    else
      let d := d.touch client
      if !e.start then (.internalError, (d.drop attachment).drop client)
      else (.success, (d.handOn attachment).handOn client)

/-- `newUserClient`. -/
def newUserClient (r : Accelerator) (e : UserClientEnv) : IOReturn × Accelerator :=
  if !e.handler then (.badArgument, r)
  else if (r.driver.field framebuffer).isNone then (.noDevice, r)
  else if !r.options.allows e.type then (.unsupported, r)
  else if e.type = 0 then
    if !e.privileged then (.notPrivileged, r)
    else
      match setupAllocator r e.setup with
      | (.success, r) =>
          let (rc, d) := makeClient r.driver e
          (rc, { r with driver := d })
      | (_, r) => (.noMemory, r)
  else
    let (rc, d) := makeClient r.driver e
    (rc, { r with driver := d })

/-- A command of a user client. -/
def command (d : Driver) : Driver := d.touch framebuffer

/-- `VRAMMalloc`, `VRAMRealloc` and `VRAMFree`, as far as what they use goes. -/
def vramCall (d : Driver) : Driver :=
  if (d.field allocator).isNone then d
  else (((d.touch iolock).touch allocator).touch allocatorMap).touch iolock

end AcceleratorDriver

/-- The calls of the system and of the user clients. -/
inductive AcceleratorCall
  | start (e : AcceleratorEnv)
  | newUserClient (e : UserClientEnv)
  | command
  | vramCall
  | stop

/-- One call. -/
def AcceleratorCall.step (r : Accelerator) : AcceleratorCall → Option Accelerator
  | .start e =>
      if r.running then none
      else
        match AcceleratorDriver.start r.driver e with
        | (true, driver) =>
            some ⟨true, driver, AcceleratorDriver.startOptions e, e.vram, freshAllocator⟩
        -- without a framebuffer nothing else is read
        | (false, driver) => some { r with driver := driver }
  | .newUserClient e => some (AcceleratorDriver.newUserClient r e).2
  | .command => some { r with driver := AcceleratorDriver.command r.driver }
  | .vramCall => some { r with driver := AcceleratorDriver.vramCall r.driver }
  | .stop =>
      if r.running then
        some { r with running := false, driver := AcceleratorDriver.stop r.driver }
      else none

namespace AcceleratorDriver

open AcceleratorField

variable {d : Driver} {s : List AcceleratorField}

/-- All fields. -/
def allFields : List AcceleratorField :=
  [service, iterator, framebuffer, iolock, allocator, allocatorMap, surfaceRoot, vramKernelMap,
    client, attachment]

/-- The list has every field. -/
theorem mem_allFields (f : AcceleratorField) : f ∈ allFields := by
  cases f <;> decide

/-- What may be there between two calls. -/
def keptFields : List AcceleratorField :=
  [service, framebuffer, iolock, allocator, allocatorMap, surfaceRoot, vramKernelMap]

/-- **`stop`** leaves no field with anything. -/
theorem stop_tidy (h : Tidy d s) (hs : ∀ f ∈ s, f ∈ keptFields) : Tidy (stop d) [] := by
  have hall := h.mono hs
  have halloc := ((hall.drop surfaceRoot).drop allocatorMap).drop allocator
  have hcleanup := ((halloc.drop vramKernelMap).drop framebuffer).drop iolock
  exact (hcleanup.drop service).mono (by decide)

/-- What a running accelerator uses without a check. -/
def Ready (d : Driver) : Prop :=
  ∀ f ∈ [framebuffer, iolock, allocator], (d.field f).isSome = true

/-- Where VRAM is mapped in the kernel, the allocator has its map. -/
def Mapped (d : Driver) : Prop :=
  (d.field vramKernelMap).isSome = true → (d.field allocatorMap).isSome = true

/-! ### `start` -/

/-- `findFramebuffer` keeps its iterator no longer than it lasts. -/
theorem findFramebuffer_tidy (h : Tidy d [service]) (e : AcceleratorEnv) :
    (∃ d', findFramebuffer d e = (.success, d') ∧ Tidy d' [framebuffer, service] ∧
        (d'.field framebuffer).isSome = true) ∨
      ∃ rc d', findFramebuffer d e = (rc, d') ∧ rc ≠ .success ∧ Tidy d' [service] := by
  rw [findFramebuffer]
  dsimp only
  split
  · exact .inr ⟨_, _, rfl, by decide, h⟩
  have hiterator := h.fetch iterator (by decide) e.iterator
  split
  · rename_i hnone
    exact .inr ⟨_, _, rfl, by decide, (hiterator.of_isNone hnone).mono (by decide)⟩
  have hnext := hiterator.touch iterator
  split
  · have hfound := (hnext.fetch framebuffer (by decide) true).drop iterator
    refine .inl ⟨_, rfl, hfound.mono (by decide), ?_⟩
    rw [drop_field_of_ne iterator (show framebuffer ≠ iterator by decide)]
    exact fetch_isSome framebuffer true
  · exact .inr ⟨_, _, rfl, by decide, (hnext.drop iterator).mono (by decide)⟩

/-- **`start`** leaves an accelerator that is ready, or one that has nothing. -/
theorem start_tidy (h : Tidy d []) (e : AcceleratorEnv) :
    (∃ d', start d e = (true, d') ∧
        Tidy d' [surfaceRoot, allocator, iolock, framebuffer, service] ∧ Ready d') ∨
      ∃ d', start d e = (false, d') ∧ Tidy d' [] := by
  rw [start]
  split
  · exact .inr ⟨_, rfl, h⟩
  rcases findFramebuffer_tidy (h.fetch service (by decide) true) e with
    ⟨d', hfind, hfound, hframebuffer⟩ | ⟨rc, d', hfind, hrc, hnone⟩
  · rw [hfind]
    have hlock := hfound.fetch iolock (by decide) e.iolock
    dsimp only
    split
    · exact .inr ⟨_, rfl, stop_tidy hlock (by decide)⟩
    rename_i hlocked
    have halloc := hlock.fetch allocator (by decide) e.factory
    split
    · exact .inr ⟨_, rfl, stop_tidy halloc (by decide)⟩
    rename_i hallocated
    have hused := halloc.touch framebuffer
    have hready : Ready (((d'.fetch iolock e.iolock).fetch allocator e.factory).touch
        framebuffer) := by
      intro f hf
      rw [touch_field]
      by_cases halloc' : f = allocator
      · rw [halloc']
        exact isSome_of_not_isNone hallocated
      rw [fetch_field_of_ne allocator halloc']
      by_cases hlock' : f = iolock
      · rw [hlock']
        exact isSome_of_not_isNone hlocked
      rw [fetch_field_of_ne iolock hlock']
      have hf' : f = framebuffer := by
        simp only [List.mem_cons, List.not_mem_nil, or_false, hlock', halloc'] at hf
        exact hf
      rw [hf']
      exact hframebuffer
    split
    · refine .inl ⟨_, rfl, hused.fetch surfaceRoot (by decide) e.surfaceRoot, fun f hf => ?_⟩
      have hne : f ≠ surfaceRoot := by
        rintro rfl
        revert hf
        decide
      rw [fetch_field_of_ne surfaceRoot hne]
      exact hready f hf
    · exact .inl ⟨_, rfl, hused.mono (by decide), hready⟩
  · rw [hfind]
    refine .inr ⟨stop d', ?_, stop_tidy hnone (by decide)⟩
    dsimp only
    split
    · rename_i heq
      cases heq
      exact absurd rfl hrc
    · rename_i heq
      cases heq
      rfl

/-! ### `setupAllocator` -/

/-- `Init` changes the map of the allocator only. -/
theorem initAllocator_field {f : AcceleratorField} (hf : f ≠ allocatorMap) (e : VramSetup)
    (p : ℕ) : (initAllocator d e p).field f = d.field f := by
  rw [initAllocator]
  split
  · rfl
  split
  · rfl
  · rw [fetch_field_of_ne allocatorMap hf, drop_field_of_ne allocatorMap hf, touch_field]

/-- `Init` keeps the fields in order, whether or not it maps anything. -/
theorem initAllocator_tidy (h : Tidy d keptFields) (e : VramSetup) (p : ℕ) :
    Tidy (initAllocator d e p) keptFields := by
  have htouch := h.touch allocator
  rw [initAllocator]
  split
  · exact htouch
  split
  · exact htouch
  · exact ((htouch.drop allocatorMap).fetch allocatorMap (by decide) _).mono (by decide)

/-- A successful set-up has come to the map of the allocator. -/
theorem initAllocator_isSome {a a' : VMsvga2Allocator} {e : VramSetup} {p : ℕ}
    (hmap : e.kernelMap = some p) (h : DockerMacos.setupAllocator a e = (.success, a')) :
    ¬(p = 0 ∨ e.bytes = 0) ∧ ((initAllocator d e p).field allocatorMap).isSome = true := by
  rw [DockerMacos.setupAllocator, hmap] at h
  dsimp only at h
  split at h
  · cases h
  rename_i hnonzero
  refine ⟨hnonzero, ?_⟩
  -- every failure of `Init` is one of `setupAllocator`
  have hinit : (a.init p e.bytes e.mapAllocated e.mem).1 = .success := by
    split at h
    · rename_i heq
      rw [heq]
    · rename_i hne _
      cases h
      exact (hne rfl).elim
  rw [VMsvga2Allocator.init] at hinit
  rw [initAllocator]
  dsimp only at hinit
  split
  · rename_i haligned
    rw [if_pos haligned] at hinit
    cases hinit
  rename_i haligned
  rw [if_neg haligned] at hinit
  split
  · rename_i hbytes
    rw [if_pos hbytes] at hinit
    cases hinit
  rename_i hbytes
  rw [if_neg hbytes] at hinit
  split at hinit
  · rename_i halloc
    rw [fetch_isSome, halloc]
  · cases hinit

/-- **`setupAllocator`** maps VRAM with the map of the allocator, or not at all. -/
theorem setupAllocator_spec {r : Accelerator} (h : Tidy r.driver keptFields)
    (hmapped : Mapped r.driver) (e : VramSetup) :
    ∃ rc r', setupAllocator r e = (rc, r') ∧ r'.running = r.running ∧ r'.options = r.options ∧
      Tidy r'.driver keptFields ∧ Mapped r'.driver ∧
      ∀ f ∈ [framebuffer, iolock, allocator], r'.driver.field f = r.driver.field f := by
  rw [setupAllocator]
  split
  · exact ⟨_, _, rfl, rfl, rfl, h, hmapped, fun _ _ => rfl⟩
  rename_i hunmapped
  have hnone := (h.of_isNone (f := vramKernelMap) (by simpa using hunmapped))
  split
  · exact ⟨_, _, rfl, rfl, rfl, h, hmapped, fun _ _ => rfl⟩
  have hframe : ∀ f ∈ [framebuffer, iolock, allocator],
      f ≠ vramKernelMap ∧ f ≠ allocatorMap := by decide
  split
  · refine ⟨_, _, rfl, rfl, rfl, (hnone.fetch vramKernelMap (by decide) false).mono (by decide),
      fun hsome => ?_, fun f hf => fetch_field_of_ne vramKernelMap (hframe f hf).1 false⟩
    rw [fetch_isSome] at hsome
    cases hsome
  · rename_i p hmap
    have hfetched := (hnone.fetch vramKernelMap (by decide) true).mono (t := keptFields)
      (by decide)
    obtain ⟨d', hd'⟩ : ∃ d', (if p = 0 ∨ e.bytes = 0 then r.driver.fetch vramKernelMap true
        else initAllocator (r.driver.fetch vramKernelMap true) e p) = d' := ⟨_, rfl⟩
    have htidy : Tidy d' keptFields := by
      rw [← hd']
      split
      · exact hfetched
      · exact initAllocator_tidy hfetched e p
    have hkept : ∀ f, f ≠ vramKernelMap → f ≠ allocatorMap → d'.field f = r.driver.field f := by
      intro f hf hf'
      rw [← hd']
      split
      · exact fetch_field_of_ne vramKernelMap hf true
      · rw [initAllocator_field hf', fetch_field_of_ne vramKernelMap hf]
    dsimp only
    rw [hd']
    refine ⟨_, _, rfl, rfl, rfl, ?_⟩
    dsimp only
    split
    · rename_i hsuccess
      refine ⟨htidy, fun _ => ?_, fun f hf => hkept f (hframe f hf).1 (hframe f hf).2⟩
      obtain ⟨hnonzero, hsome⟩ := initAllocator_isSome
        (d := r.driver.fetch vramKernelMap true) hmap (Prod.ext hsuccess rfl)
      rw [← hd', if_neg hnonzero]
      exact hsome
    · refine ⟨(htidy.drop vramKernelMap).mono (by decide), fun hsome => ?_, fun f hf => ?_⟩
      · rw [drop_field, Function.update_self] at hsome
        cases hsome
      · rw [drop_field_of_ne vramKernelMap (hframe f hf).1]
        exact hkept f (hframe f hf).1 (hframe f hf).2

/-! ### `newUserClient` -/

/-- A user client is handed on, or nothing is left of it. -/
theorem makeClient_spec (h : Tidy d keptFields) (e : UserClientEnv) :
    Tidy (makeClient d e).2 keptFields ∧
      ∀ f ∈ keptFields, (makeClient d e).2.field f = d.field f := by
  have hframe : ∀ f ∈ keptFields, f ≠ client ∧ f ≠ attachment := by decide
  have hclient := h.fetch client (by decide) e.withTask
  rw [makeClient]
  dsimp only
  split
  · rename_i hnone
    exact ⟨(hclient.of_isNone hnone).mono (by decide),
      fun f hf => fetch_field_of_ne client (hframe f hf).1 _⟩
  have hattach := (hclient.touch client).fetch attachment (by decide) e.attach
  split
  · rename_i hnone
    refine ⟨((hattach.of_isNone hnone).drop client).mono (by decide), fun f hf => ?_⟩
    obtain ⟨hfc, hfa⟩ := hframe f hf
    rw [drop_field_of_ne client hfc, fetch_field_of_ne attachment hfa, touch_field,
      fetch_field_of_ne client hfc]
  have hstart := hattach.touch client
  split
  · refine ⟨((hstart.drop attachment).drop client).mono (by decide), fun f hf => ?_⟩
    obtain ⟨hfc, hfa⟩ := hframe f hf
    rw [drop_field_of_ne client hfc, drop_field_of_ne attachment hfa, touch_field,
      fetch_field_of_ne attachment hfa, touch_field, fetch_field_of_ne client hfc]
  · refine ⟨((hstart.handOn attachment).handOn client).mono (by decide), fun f hf => ?_⟩
    obtain ⟨hfc, hfa⟩ := hframe f hf
    rw [handOn_field_of_ne client hfc, handOn_field_of_ne attachment hfa, touch_field,
      fetch_field_of_ne attachment hfa, touch_field, fetch_field_of_ne client hfc]

/-- The accelerator between two calls. -/
structure Ledger (r : Accelerator) : Prop where
  tidy : Tidy r.driver keptFields
  mapped : Mapped r.driver
  ready : r.running = true → Ready r.driver
  stopped : r.running = false → Tidy r.driver []

/-- What keeps the fields of a running accelerator keeps its ledger. -/
theorem Ledger.of_running {r r' : Accelerator} (h : Ledger r) (hrun : r.running = true)
    (hrunning : r'.running = r.running) (htidy : Tidy r'.driver keptFields)
    (hmapped : Mapped r'.driver)
    (hframe : ∀ f ∈ [framebuffer, iolock, allocator], r'.driver.field f = r.driver.field f) :
    Ledger r' := by
  refine ⟨htidy, hmapped, fun _ f hf => ?_, fun hstopped => ?_⟩
  · rw [hframe f hf]
    exact h.ready hrun f hf
  · rw [hrunning, hrun] at hstopped
    cases hstopped

/-- The user client on top of what `newUserClient` has set up. -/
theorem Ledger.makeClient {r : Accelerator} (h : Ledger r) (hrun : r.running = true)
    (e : UserClientEnv) : Ledger { r with driver := (makeClient r.driver e).2 } := by
  obtain ⟨htidy, hframe⟩ := makeClient_spec h.tidy e
  refine h.of_running hrun rfl htidy (fun hsome => ?_) fun f hf => hframe f ?_
  · change ((AcceleratorDriver.makeClient r.driver e).2.field allocatorMap).isSome = true
    change ((AcceleratorDriver.makeClient r.driver e).2.field vramKernelMap).isSome = true at hsome
    rw [hframe vramKernelMap (by decide)] at hsome
    rw [hframe allocatorMap (by decide)]
    exact h.mapped hsome
  · revert f
    decide

/-- **`newUserClient`**, whatever it finds. -/
theorem newUserClient_ledger {r : Accelerator} (h : Ledger r) (e : UserClientEnv) :
    Ledger (newUserClient r e).2 := by
  rw [newUserClient]
  split
  · exact h
  split
  · exact h
  rename_i hframebuffer
  have hrun : r.running = true := by
    refine Bool.eq_true_of_not_eq_false fun hstopped => hframebuffer ?_
    rw [(h.stopped hstopped).null framebuffer List.not_mem_nil]
    rfl
  split
  · exact h
  split
  · split
    · exact h
    obtain ⟨rc, r', hsetup, hrunning, -, htidy, hmapped, hframe⟩ :=
      setupAllocator_spec h.tidy h.mapped e.setup
    have hledger := h.of_running hrun hrunning htidy hmapped hframe
    rw [hsetup]
    dsimp only
    split
    · rename_i heq
      cases heq
      exact hledger.makeClient (hrunning.trans hrun) e
    · rename_i heq
      cases heq
      exact hledger
  · exact h.makeClient hrun e

/-- What is only used stays. -/
theorem Ledger.touched {r : Accelerator} (h : Ledger r) {d' : Driver}
    (htidy : ∀ {s}, Tidy r.driver s → Tidy d' s) (hfield : d'.field = r.driver.field) :
    Ledger { r with driver := d' } := by
  refine ⟨htidy h.tidy, fun hsome => ?_, fun hrun f hf => ?_, fun hstopped => ?_⟩
  · change (d'.field vramKernelMap).isSome = true at hsome
    change (d'.field allocatorMap).isSome = true
    rw [hfield] at hsome ⊢
    exact h.mapped hsome
  · change (d'.field f).isSome = true
    rw [hfield]
    exact h.ready hrun f hf
  · exact htidy (h.stopped hstopped)

/-- **A call** of the system keeps the accelerator in order. -/
theorem ledger_step {r r' : Accelerator} (call : AcceleratorCall) (h : Ledger r)
    (hstep : call.step r = some r') : Ledger r' := by
  cases call with
  | start e =>
    rw [AcceleratorCall.step] at hstep
    split at hstep
    · cases hstep
    rename_i hrunning
    have hstopped := h.stopped (by simpa using hrunning)
    rcases start_tidy hstopped e with ⟨d, hstart, htidy, hready⟩ | ⟨d, hstart, htidy⟩
    · rw [hstart] at hstep
      obtain rfl := Option.some.inj hstep
      refine ⟨htidy.mono (by decide), fun hsome => ?_, fun _ => hready, (by rintro ⟨⟩)⟩
      rw [htidy.null vramKernelMap (by decide)] at hsome
      cases hsome
    · rw [hstart] at hstep
      obtain rfl := Option.some.inj hstep
      refine ⟨htidy.mono (by decide), fun hsome => ?_, fun hrun => absurd hrun hrunning,
        fun _ => htidy⟩
      rw [htidy.null vramKernelMap (by decide)] at hsome
      cases hsome
  | newUserClient e =>
    obtain rfl := Option.some.inj hstep
    exact newUserClient_ledger h e
  | command =>
    obtain rfl := Option.some.inj hstep
    exact h.touched (fun hs => hs.touch framebuffer) rfl
  | vramCall =>
    obtain rfl := Option.some.inj hstep
    refine h.touched (fun hs => ?_) ?_
    · rw [vramCall]
      split
      · exact hs
      · exact (((hs.touch iolock).touch allocator).touch allocatorMap).touch iolock
    · rw [vramCall]
      split <;> rfl
  | stop =>
    rw [AcceleratorCall.step] at hstep
    split at hstep
    · obtain rfl := Option.some.inj hstep
      have htidy := stop_tidy h.tidy fun _ hf => hf
      refine ⟨htidy.mono (by decide), fun hsome => ?_, (by rintro ⟨⟩), fun _ => htidy⟩
      rw [htidy.null vramKernelMap (by decide)] at hsome
      cases hsome
    · cases hstep

end AcceleratorDriver

/-! ### Starts, calls and stops -/

/-- An accelerator before its first start. -/
def Accelerator.new : Accelerator where
  running := false
  driver := OwnedFields.new
  options := ⟨false, false, false, false⟩
  vram := false
  alloc := freshAllocator

/-- **Released exactly once**, but for the user clients, which are handed on. -/
theorem accelerator_released {calls : List AcceleratorCall} {r : Accelerator}
    (h : Run AcceleratorCall.step Always .new calls r) :
    (holdings r.driver.log).isSome = true ∧
      (r.running = false → ∀ q, .acquire q ∈ r.driver.log →
        r.driver.log.count (.release q) = if q ∈ r.driver.handed then 0 else 1) ∧
      (r.running = true → AcceleratorDriver.Ready r.driver) ∧
      AcceleratorDriver.Mapped r.driver := by
  have hledger : AcceleratorDriver.Ledger r :=
    h.invariant (fun _ call _ hI _ hstep => AcceleratorDriver.ledger_step call hI hstep)
      ⟨tidy_new.mono (by decide), (by rintro ⟨⟩), (by rintro ⟨⟩), fun _ => tidy_new⟩
  refine ⟨by rw [hledger.tidy.held]; rfl, fun hstopped q hq => ?_, hledger.ready,
    hledger.mapped⟩
  exact (hledger.stopped hstopped).released hq

/-- A provider with a framebuffer, but no lock for the accelerator. -/
def noLock : AcceleratorEnv where
  isPci := true
  superStart := true
  options := ⟨true, true, true, false⟩
  getProvider := true
  iterator := true
  clients := [⟨false, false⟩, ⟨true, false⟩, ⟨true, true⟩]
  iolock := false
  vram := true
  factory := true
  haveGLBaseline := true
  surfaceRoot := true

/-- A surface, with two pages of VRAM. -/
def surfaceClient : UserClientEnv where
  type := 0
  handler := true
  privileged := true
  setup := ⟨0x2000, 0x2000, some 0x100000, true, true, fun _ => 0⟩
  withTask := true
  attach := true
  start := true

/-- A start that fails, one that does not, a surface, one whose start fails, their calls, and
the stop. -/
def servedClients : List AcceleratorCall :=
  [.start noLock, .start { noLock with iolock := true }, .newUserClient surfaceClient,
    .newUserClient { surfaceClient with start := false }, .command, .vramCall, .stop]

/-- Of fifteen resources two are handed on, the surface and its place. -/
theorem accelerator_released_served : ∃ r,
    Run AcceleratorCall.step Always .new servedClients r ∧
      r.driver.next = 15 ∧ r.driver.handed.card = 2 ∧
      ∀ q, .acquire q ∈ r.driver.log →
        r.driver.log.count (.release q) = if q ∈ r.driver.handed then 0 else 1 := by
  have hrun : (servedClients.foldlM AcceleratorCall.step .new).map
      (fun r => (r.running, r.driver.next, r.driver.handed.card)) = some (false, 15, 2) := by
    decide +kernel
  obtain ⟨r, hr, hend⟩ := Option.map_eq_some_iff.mp hrun
  obtain ⟨hstopped, hnext, hcard⟩ : r.running = false ∧ r.driver.next = 15 ∧
      r.driver.handed.card = 2 := by simpa using hend
  exact ⟨r, run_of_foldlM hr, hnext, hcard,
    (accelerator_released (run_of_foldlM hr)).2.1 hstopped⟩

end DockerMacos
