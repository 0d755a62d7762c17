import DockerMacos.DisplayMode
import DockerMacos.OwnedFields
import DockerMacos.Run

/-!
# Starting and Stopping the Framebuffer

The driver of the framebuffer (`FB/VMsvga2.cpp`, with the device in `FB/SVGADevice.cpp`)
obtains what it needs one thing after another when it is started, and a failure on the way
takes back what is there. The system starts a driver that does not run, and calls and stops one
that does.

## Fields

What the driver obtains are fields of it (`FramebufferField`); the base class counts as one, as
its start is undone by its stop. A field is used, released and cleared as it is in the source,
and whether it has something decides whether `Cleanup` releases it. What the system finds at
each point of `start` is part of the call (`FramebufferEnv`), so that every failure occurs.

## Kept and ready

`Kept` is what holds between calls whether the driver runs or not: nothing is lost, and nothing
is released twice. `Ready` is what a running driver has: the methods use it without a check.

## Main results

* `start_kept`, `stop_kept`: one start, one stop.
* `ledger_step`: a call of the system keeps the driver in order.
* `framebuffer_released`: any starts, calls and stops.
-/

namespace DockerMacos

open OwnedFields

/-! ### The driver -/

/-- What the driver of the framebuffer obtains; `service` is the start of its base class. No method
fills `cursorImage` any more, but `start` and `Cleanup` still look after it. -/
inductive FramebufferField
  | service
  | edid
  | bar2Map
  | bounceBuffer
  | restoreCall
  | refreshCall
  | iolock
  | cursorImage
  deriving DecidableEq

instance : Fintype FramebufferField where
  elems := {.service, .edid, .bar2Map, .bounceBuffer, .restoreCall, .refreshCall, .iolock,
    .cursorImage}
  complete f := by cases f <;> decide

/-- `SVGA_ID_2`. -/
def svgaId2 : ℕ := 0x90000002

/-- What `start` finds. -/
structure FramebufferEnv where
  /-- The provider is a PCI device. -/
  isPci : Bool
  superStart : Bool
  /-- The length of the property `EDID`. -/
  edid : Option ℕ
  edidAlloc : Bool
  /-- The memory of the I/O registers. -/
  bar0 : Bool
  /-- What `SVGA_REG_ID` reads. -/
  regId : ℕ
  /-- The memory of the FIFO. -/
  bar2 : Bool
  bar2Map : Bool
  bounceBuffer : Bool
  svga : SVGAMode
  restoreCall : Bool
  optionFifoInit : Bool
  optionRefreshTimer : Bool
  /-- `SVGA_CAP_TRACES`. -/
  hasTraces : Bool
  refreshCall : Bool
  iolock : Bool

namespace FramebufferDriver

open FramebufferField

/-- The driver. -/
abbrev Driver := OwnedFields FramebufferField

/-- `SVGADevice::Cleanup`. -/
def svgaCleanup (d : Driver) : Driver := (d.drop bar2Map).drop bounceBuffer

/-- `SVGADevice::Init`. -/
def svgaInit (d : Driver) : Driver := (d.clear bar2Map).clear bounceBuffer

/-- `SVGADevice::Start`. -/
def svgaStart (d : Driver) (e : FramebufferEnv) : Bool × Driver :=
  let d := d.clear bounceBuffer
  if !e.bar0 then (false, svgaCleanup d)
  else if e.regId ≠ svgaId2 then (false, svgaCleanup d)
  else if !e.bar2 then (false, svgaCleanup d)
  else
    let d := d.fetch bar2Map e.bar2Map
    if (d.field bar2Map).isNone then (false, svgaCleanup d)
    else
      let d := d.fetch bounceBuffer e.bounceBuffer
      if (d.field bounceBuffer).isNone then (false, svgaCleanup d) else (true, d)

/-- `Cleanup`: the calls are cancelled before anything is released. -/
def cleanup (d : Driver) : Driver :=
  let d := (d.touch refreshCall).touch restoreCall
  let d := svgaCleanup (d.drop refreshCall)
  (((d.drop restoreCall).drop cursorImage).drop edid).drop iolock

/-- `stop`, and the failure of `start`. -/
def stop (d : Driver) : Driver := (cleanup d).drop service

/-- The copy of the EDID. -/
def startEdid (d : Driver) (e : FramebufferEnv) : Driver :=
  match e.edid with
  | none => d
  | some length => if length ≠ 0 ∧ length ≤ 256 then d.fetch edid e.edidAlloc else d

/-- The calls of `start`; `FIFOInit` uses the mapping. -/
def startCalls (d : Driver) (e : FramebufferEnv) : Driver :=
  let d := d.fetch restoreCall e.restoreCall
  if e.optionFifoInit then
    let d := d.touch bar2Map
    if !e.hasTraces && e.optionRefreshTimer then d.fetch refreshCall e.refreshCall else d
  else d

/-- `start` with a device that has been started. -/
def startDevice (d : Driver) (e : FramebufferEnv) : Bool × Driver :=
  if (Framebuffer.activeModes e.svga).length ≤ 2 then (false, stop d)
  else
    let d := (startCalls d e).fetch iolock e.iolock
    if (d.field iolock).isNone then (false, stop d) else (true, d.touch refreshCall)

/-- `start`. -/
def start (d : Driver) (e : FramebufferEnv) : Bool × Driver :=
  if !e.isPci || !e.superStart then (false, d)
  else
    let d := startEdid (d.fetch service true) e
    let d := (((d.clear restoreCall).clear iolock).clear cursorImage).clear refreshCall
    let d := svgaInit d
    match svgaStart d e with
    | (false, d) => (false, stop d)
    | (true, d) => startDevice d e

/-- A command, sent by a method, by the refresh timer or by the accelerator. -/
def command (d : Driver) : Driver :=
  (((d.touch iolock).touch bar2Map).touch bounceBuffer).touch iolock

end FramebufferDriver

/-- The driver, and whether it runs. -/
structure FramebufferRun where
  running : Bool
  driver : FramebufferDriver.Driver

/-- The calls of the system. -/
inductive FramebufferCall
  | start (e : FramebufferEnv)
  | command
  | stop

/-- One call. -/
def FramebufferCall.step (r : FramebufferRun) : FramebufferCall → Option FramebufferRun
  | .start e =>
      if r.running then none
      else
        let (running, driver) := FramebufferDriver.start r.driver e
        some ⟨running, driver⟩
  | .command => if r.running then some ⟨true, FramebufferDriver.command r.driver⟩ else none
  | .stop => if r.running then some ⟨false, FramebufferDriver.stop r.driver⟩ else none

namespace FramebufferDriver

open FramebufferField

variable {d d' : Driver} {s : List FramebufferField} {e : FramebufferEnv}

/-- All fields. -/
def allFields : List FramebufferField :=
  [service, edid, bar2Map, bounceBuffer, restoreCall, refreshCall, iolock, cursorImage]

/-- The list has every field. -/
theorem mem_allFields (f : FramebufferField) : f ∈ allFields := by
  cases f <;> decide

/-- The driver has handed on nothing, and its fields are in order. -/
structure Kept (d : Driver) (s : List FramebufferField) : Prop extends Tidy d s where
  handed : d.handed = 0

namespace Kept

/-- Fields that may have nothing may have something. -/
theorem mono (h : Kept d s) {t : List FramebufferField} (hst : ∀ f ∈ s, f ∈ t) : Kept d t :=
  ⟨h.toTidy.mono hst, h.handed⟩

/-- Any driver in order, whatever it has. -/
theorem all (h : Kept d s) : Kept d allFields := h.mono fun f _ => mem_allFields f

/-- A field that has nothing may be set to null. -/
theorem clear (h : Kept d s) (f : FramebufferField) (hf : f ∉ s) : Kept (d.clear f) s :=
  ⟨h.toTidy.clear f hf, h.handed⟩

/-- A field that has nothing may be assigned. -/
theorem fetch (h : Kept d s) (f : FramebufferField) (hf : f ∉ s) (ok : Bool) :
    Kept (d.fetch f ok) (f :: s) :=
  ⟨h.toTidy.fetch f hf ok, by rw [fetch_handed, h.handed]⟩

/-- A field that is released has nothing. -/
theorem drop (h : Kept d s) (f : FramebufferField) : Kept (d.drop f) (s.filter (· ≠ f)) :=
  ⟨h.toTidy.drop f, h.handed⟩

/-- A field that is used has what it had. -/
theorem touch (h : Kept d s) (f : FramebufferField) : Kept (d.touch f) s :=
  ⟨h.toTidy.touch f, h.handed⟩

end Kept

/-- **`stop`** leaves no field with anything, whatever the driver has. -/
theorem stop_kept (h : Kept d s) : Kept (stop d) [] := by
  have hcalls := ((h.all.touch refreshCall).touch restoreCall).drop refreshCall
  have hdevice := (hcalls.drop bar2Map).drop bounceBuffer
  have hmemory := ((hdevice.drop restoreCall).drop cursorImage).drop edid
  exact ((hmemory.drop iolock).drop service).mono (by decide)

/-- What a running driver uses without a check. -/
def Ready (d : Driver) : Prop :=
  ∀ f ∈ [bar2Map, bounceBuffer, iolock], (d.field f).isSome = true

/-- `SVGADevice::Start` has its mapping and its buffer, or nothing. -/
theorem svgaStart_kept (h : Kept d [edid, service]) :
    (∃ d', svgaStart d e = (false, d') ∧ Kept d' [edid, service]) ∨
      ∃ d', svgaStart d e = (true, d') ∧ Kept d' [bounceBuffer, bar2Map, edid, service] ∧
        ∀ f ∈ [bar2Map, bounceBuffer], (d'.field f).isSome = true := by
  have hclear := h.clear bounceBuffer (by decide)
  have hclean : ∀ {t}, (∀ f ∈ t, f ∈ [bounceBuffer, bar2Map, edid, service]) →
      ∀ {c : Driver}, Kept c t → Kept (svgaCleanup c) [edid, service] := by
    intro t ht c hc
    exact (((hc.mono ht).drop bar2Map).drop bounceBuffer).mono (by decide)
  rw [svgaStart]
  dsimp only
  split
  · exact .inl ⟨_, rfl, hclean (by decide) hclear⟩
  split
  · exact .inl ⟨_, rfl, hclean (by decide) hclear⟩
  split
  · exact .inl ⟨_, rfl, hclean (by decide) hclear⟩
  have hmap := hclear.fetch bar2Map (by decide) e.bar2Map
  split
  · exact .inl ⟨_, rfl, hclean (by decide) hmap⟩
  rename_i hmapped
  have hbuffer := hmap.fetch bounceBuffer (by decide) e.bounceBuffer
  split
  · exact .inl ⟨_, rfl, hclean (by decide) hbuffer⟩
  rename_i hbounced
  refine .inr ⟨_, rfl, hbuffer, ?_⟩
  rintro f hf
  rcases List.mem_pair.mp hf with rfl | rfl
  · rw [fetch_field_of_ne bounceBuffer (show bar2Map ≠ bounceBuffer by decide)]
    exact isSome_of_not_isNone hmapped
  · exact isSome_of_not_isNone hbounced

/-- The calls that `start` allocates. -/
theorem startCalls_kept (h : Kept d [bounceBuffer, bar2Map, edid, service]) :
    Kept (startCalls d e) [refreshCall, restoreCall, bounceBuffer, bar2Map, edid, service] := by
  have hrestore := h.fetch restoreCall (by decide) e.restoreCall
  have hnone := hrestore.mono (t := refreshCall :: _) fun f => List.mem_cons_of_mem refreshCall
  rw [startCalls]
  dsimp only
  split
  · split
    · exact (hrestore.touch bar2Map).fetch refreshCall (by decide) e.refreshCall
    · exact hnone.touch bar2Map
  · exact hnone

/-- They are in fields of their own. -/
theorem startCalls_field {f : FramebufferField} (hf : f ∉ [restoreCall, refreshCall]) :
    (startCalls d e).field f = d.field f := by
  rw [List.mem_pair, not_or] at hf
  have hrestore := fetch_field_of_ne (d := d) restoreCall hf.1 e.restoreCall
  rw [startCalls]
  dsimp only
  split
  · split
    · rw [fetch_field_of_ne refreshCall hf.2, touch_field, hrestore]
    · rw [touch_field, hrestore]
  · exact hrestore

/-- `start` after the start of the device. -/
theorem startDevice_kept (h : Kept d [bounceBuffer, bar2Map, edid, service])
    (hready : ∀ f ∈ [bar2Map, bounceBuffer], (d.field f).isSome = true) :
    (∃ d', startDevice d e = (false, d') ∧ Kept d' []) ∨
      ∃ d', startDevice d e = (true, d') ∧ Kept d' allFields ∧ Ready d' := by
  have hlock := (startCalls_kept (e := e) h).fetch iolock (by decide) e.iolock
  rw [startDevice]
  dsimp only
  split
  · exact .inl ⟨_, rfl, stop_kept h⟩
  split
  · exact .inl ⟨_, rfl, stop_kept hlock⟩
  rename_i hlocked
  refine .inr ⟨_, rfl, (hlock.touch refreshCall).all, fun f hf => ?_⟩
  rw [touch_field]
  by_cases hiolock : f = iolock
  · rw [hiolock]
    exact isSome_of_not_isNone hlocked
  · have hdevice : f ∈ [bar2Map, bounceBuffer] := by
      simp only [List.mem_cons, List.not_mem_nil, or_false] at hf ⊢
      tauto
    have hcall : f ∉ [restoreCall, refreshCall] := by
      rcases List.mem_pair.mp hdevice with rfl | rfl <;> decide
    rw [fetch_field_of_ne iolock hiolock, startCalls_field hcall]
    exact hready f hdevice

/-- **`start`** leaves a driver that is ready, or one that has nothing. -/
theorem start_kept (h : Kept d []) (e : FramebufferEnv) :
    (∃ d', start d e = (false, d') ∧ Kept d' []) ∨
      ∃ d', start d e = (true, d') ∧ Kept d' allFields ∧ Ready d' := by
  rw [start]
  split
  · exact .inl ⟨d, rfl, h⟩
  have hservice := h.fetch service (by decide) true
  have hedid : Kept (startEdid (d.fetch service true) e) [edid, service] := by
    have hnone := hservice.mono (t := [edid, service]) (by decide)
    rw [startEdid]
    split
    · exact hnone
    · split
      · exact hservice.fetch edid (by decide) e.edidAlloc
      · exact hnone
  have hcleared := (((hedid.clear restoreCall (by decide)).clear iolock (by decide)).clear
    cursorImage (by decide)).clear refreshCall (by decide)
  have hinit := (hcleared.clear bar2Map (by decide)).clear bounceBuffer (by decide)
  rcases svgaStart_kept (e := e) hinit with ⟨d', hstart, hkept⟩ | ⟨d', hstart, hkept, hready⟩
  · refine .inl ⟨stop d', ?_, stop_kept hkept⟩
    dsimp only
    rw [svgaInit, hstart]
  · have hdevice := startDevice_kept (e := e) hkept hready
    dsimp only
    rw [svgaInit, hstart]
    exact hdevice

/-- The driver while the system starts, uses and stops it. -/
structure Ledger (r : FramebufferRun) : Prop where
  kept : Kept r.driver allFields
  stopped : r.running = false → Kept r.driver []
  ready : r.running = true → Ready r.driver

/-- **A call** of the system keeps the driver in order. -/
theorem ledger_step {r r' : FramebufferRun} (call : FramebufferCall)
    (h : Ledger r) (hstep : call.step r = some r') : Ledger r' := by
  cases call with
  | start e =>
    rw [FramebufferCall.step] at hstep
    split at hstep
    · cases hstep
    rename_i hrunning
    rcases start_kept (h.stopped (by simpa using hrunning)) e with
      ⟨d, hstart, hkept⟩ | ⟨d, hstart, hkept, hready⟩
    · rw [hstart] at hstep
      obtain rfl := Option.some.inj hstep
      exact ⟨hkept.all, fun _ => hkept, (by rintro ⟨⟩)⟩
    · rw [hstart] at hstep
      obtain rfl := Option.some.inj hstep
      exact ⟨hkept, (by rintro ⟨⟩), fun _ => hready⟩
  | command =>
    rw [FramebufferCall.step] at hstep
    split at hstep
    · rename_i hrunning
      obtain rfl := Option.some.inj hstep
      exact ⟨(((h.kept.touch iolock).touch bar2Map).touch bounceBuffer).touch iolock,
        (by rintro ⟨⟩), fun _ => h.ready hrunning⟩
    · cases hstep
  | stop =>
    rw [FramebufferCall.step] at hstep
    split at hstep
    · obtain rfl := Option.some.inj hstep
      exact ⟨(stop_kept h.kept).all, fun _ => stop_kept h.kept, (by rintro ⟨⟩)⟩
    · cases hstep

end FramebufferDriver

/-! ### Starts, calls and stops -/

/-- **Released exactly once.** -/
theorem framebuffer_released {calls : List FramebufferCall} {r : FramebufferRun}
    (h : Run FramebufferCall.step Always ⟨false, new⟩ calls r) :
    (holdings r.driver.log).isSome = true ∧
      (r.running = false → ReleasedOnce r.driver.log) ∧
      (r.running = true → FramebufferDriver.Ready r.driver) := by
  have hnew : FramebufferDriver.Kept new [] := ⟨tidy_new, rfl⟩
  have hledger : FramebufferDriver.Ledger r :=
    h.invariant (fun _ call _ hI _ hstep => FramebufferDriver.ledger_step call hI hstep)
      ⟨hnew.all, fun _ => hnew, (by rintro ⟨⟩)⟩
  refine ⟨by rw [hledger.kept.held]; rfl, fun hstopped => ?_, hledger.ready⟩
  have hkept := hledger.stopped hstopped
  exact hkept.releasedOnce hkept.handed

/-- A device with everything but memory for the bounce buffer. -/
def noBounceBuffer : FramebufferEnv where
  isPci := true
  superStart := true
  edid := some 128
  edidAlloc := true
  bar0 := true
  regId := svgaId2
  bar2 := true
  bar2Map := true
  bounceBuffer := false
  svga := ⟨1920, 1080, 0, 0, 0, 0, fun _ _ => 0⟩
  restoreCall := true
  optionFifoInit := true
  optionRefreshTimer := true
  hasTraces := false
  refreshCall := true
  iolock := true

/-- A start that fails, one that does not, a command and the stop. -/
def restarted : List FramebufferCall :=
  [.start noBounceBuffer, .start { noBounceBuffer with bounceBuffer := true },
    .command, .stop]

/-- After these, ten resources have been released. -/
theorem framebuffer_released_restarted : ∃ r,
    Run FramebufferCall.step Always ⟨false, new⟩ restarted r ∧ r.driver.next = 10 ∧
      ReleasedOnce r.driver.log := by
  have hrun : (restarted.foldlM FramebufferCall.step ⟨false, new⟩).map
      (fun r => (r.running, r.driver.next)) = some (false, 10) := by decide +kernel
  obtain ⟨r, hr, hend⟩ := Option.map_eq_some_iff.mp hrun
  obtain ⟨hstopped, hnext⟩ := Prod.mk.inj hend
  exact ⟨r, run_of_foldlM hr, hnext, (framebuffer_released (run_of_foldlM hr)).2.1 hstopped⟩

end DockerMacos
