import DockerMacos.DisplayPatcher
import DockerMacos.Run
import Mathlib.Data.List.DropRight
import Mathlib.Data.List.ReduceOption
import Mathlib.Data.Multiset.AddSub
import Mathlib.Data.UInt

/-!
# Counting the Calls

Every replacement of `QEMUDisplayPatcher` counts its calls (`QDP_COUNT`), and some write a line
when they are called for the first time (`QDP_FIRST_CALL`). `setupForCurrentConfig` publishes
the counters and the mask of the modes that have been asked for; `verify-modes.sh` looks for the
lines among the last 5000 of the container's log, which has lines of others, too.

## Interleaving

The counters are atomic, the rest is not locked. `DisplayHooks.step` takes one access to the
shared data at a time, of any number of calls; a call that is under way is a `HookPc`, which
says what it does next. So a counter may be read while another call has changed its own but
not yet the mask.

## Ledgers

The invariants compare the shared data with the calls of the run: a `Ledger` tells how many
calls of a kind have had their effect, and how many of them are still on the way to it. The
counters are 32 bits wide and wrap, which shows in the lines (one with every 2³² calls) and in
the counts that are published.

## Main results

* `logged_iff_called`: which methods have a line.
* `hook_called_iff_logged`: which of them the check of `verify-modes.sh` finds.
* `published_counts`: each count that is published was the right one while the counts were read.
* `modes_queried`: what the mask says about the modes.
* `aperture_of_mode`: the aperture is that of the mode that was set last.
-/

namespace DockerMacos

open DisplayPatcher

/-! ### Calls -/

/-- `QDPHook` -/
inductive QDPHook
  | enableController
  | hasDDCConnect
  | getDDCBlock
  | setGammaTable
  | getVRAMRange
  | setAttributeForConnection
  | getApertureRange
  | getPixelFormats
  | getDisplayModeCount
  | getDisplayModes
  | getInformationForDisplayMode
  | getPixelInformation
  | getCurrentDisplayMode
  | setDisplayMode
  | getPixelFormatsForDisplayMode
  | getTimingInfoForDisplayMode
  | getConnectionCount
  | setupForCurrentConfig
  | getAttribute
  | getAttributeForConnection
  | registerForInterruptType
  | unregisterInterrupt
  | setInterruptState
  | connectFlags
  deriving DecidableEq

namespace QDPHook

/-- The methods, in the order of their counters. -/
def all : List QDPHook :=
  [enableController, hasDDCConnect, getDDCBlock, setGammaTable, getVRAMRange,
    setAttributeForConnection, getApertureRange, getPixelFormats, getDisplayModeCount,
    getDisplayModes, getInformationForDisplayMode, getPixelInformation, getCurrentDisplayMode,
    setDisplayMode, getPixelFormatsForDisplayMode, getTimingInfoForDisplayMode,
    getConnectionCount, setupForCurrentConfig, getAttribute, getAttributeForConnection,
    registerForInterruptType, unregisterInterrupt, setInterruptState, connectFlags]

/-- `gHookNames` -/
def name : QDPHook → String
  | enableController => "enableController"
  | hasDDCConnect => "hasDDCConnect"
  | getDDCBlock => "getDDCBlock"
  | setGammaTable => "setGammaTable"
  | getVRAMRange => "getVRAMRange"
  | setAttributeForConnection => "setAttributeForConnection"
  | getApertureRange => "getApertureRange"
  | getPixelFormats => "getPixelFormats"
  | getDisplayModeCount => "getDisplayModeCount"
  | getDisplayModes => "getDisplayModes"
  | getInformationForDisplayMode => "getInformationForDisplayMode"
  | getPixelInformation => "getPixelInformation"
  | getCurrentDisplayMode => "getCurrentDisplayMode"
  | setDisplayMode => "setDisplayMode"
  | getPixelFormatsForDisplayMode => "getPixelFormatsForDisplayMode"
  | getTimingInfoForDisplayMode => "getTimingInfoForDisplayMode"
  | getConnectionCount => "getConnectionCount"
  | setupForCurrentConfig => "setupForCurrentConfig"
  | getAttribute => "getAttribute"
  | getAttributeForConnection => "getAttributeForConnection"
  | registerForInterruptType => "registerForInterruptType"
  | unregisterInterrupt => "unregisterInterrupt"
  | setInterruptState => "setInterruptState"
  | connectFlags => "connectFlags"

/-- No method is missing. -/
theorem mem_all (hook : QDPHook) : hook ∈ all := by
  cases hook <;> decide

/-- The names are different. -/
theorem name_injective {h k : QDPHook} (hname : h.name = k.name) : h = k := by
  have hnodup : (all.map name).Nodup := by decide
  exact List.inj_on_of_nodup_map hnodup h.mem_all k.mem_all hname

end QDPHook

/-- A call, with what the lines and the shared data need of its arguments. -/
inductive HookCall
  /-- What the original method returns, if it is known, and the bytes of VRAM. -/
  | enableController (org : Option (UInt32 × UInt64))
  | hasDDCConnect
  | getDDCBlock (bn bt : UInt32)
  | setGammaTable
  | getVRAMRange
  | setAttributeForConnection
  /-- Whether it is the aperture of a PCI device that has a second BAR. -/
  | getApertureRange (bar1 : Bool)
  | getPixelFormats
  | getDisplayModeCount
  | getDisplayModes
  /-- Whether `info` is not null. -/
  | getInformationForDisplayMode (mode : Int32) (info : Bool)
  | getPixelInformation
  | getCurrentDisplayMode
  | setDisplayMode (mode : Int32)
  | getPixelFormatsForDisplayMode
  | getTimingInfoForDisplayMode
  | getConnectionCount
  /-- Whether the original method is known, the framebuffer is not null, and there is an array
  for the counts. -/
  | setupForCurrentConfig (org fb array : Bool)
  | getAttribute (attr : UInt32)
  | getAttributeForConnection (ci : Int32) (attr : UInt32)
  | registerForInterruptType (type : UInt32)
  | unregisterInterrupt
  | setInterruptState
  | connectFlags (ci modeID : Int32)
  deriving DecidableEq

/-- `%d` -/
def signedDigits (n : Int32) : List Char :=
  if n.toInt < 0 then '-' :: Nat.toDigits 10 n.toInt.natAbs else Nat.toDigits 10 n.toInt.natAbs

/-- `%x` -/
def hexDigits (n : UInt32) : List Char := Nat.toDigits 16 n.toNat

namespace HookCall

/-- The method that is called. -/
def hook : HookCall → QDPHook
  | enableController _ => .enableController
  | hasDDCConnect => .hasDDCConnect
  | getDDCBlock _ _ => .getDDCBlock
  | setGammaTable => .setGammaTable
  | getVRAMRange => .getVRAMRange
  | setAttributeForConnection => .setAttributeForConnection
  | getApertureRange _ => .getApertureRange
  | getPixelFormats => .getPixelFormats
  | getDisplayModeCount => .getDisplayModeCount
  | getDisplayModes => .getDisplayModes
  | getInformationForDisplayMode _ _ => .getInformationForDisplayMode
  | getPixelInformation => .getPixelInformation
  | getCurrentDisplayMode => .getCurrentDisplayMode
  | setDisplayMode _ => .setDisplayMode
  | getPixelFormatsForDisplayMode => .getPixelFormatsForDisplayMode
  | getTimingInfoForDisplayMode => .getTimingInfoForDisplayMode
  | getConnectionCount => .getConnectionCount
  | setupForCurrentConfig _ _ _ => .setupForCurrentConfig
  | getAttribute _ => .getAttribute
  | getAttributeForConnection _ _ => .getAttributeForConnection
  | registerForInterruptType _ => .registerForInterruptType
  | unregisterInterrupt => .unregisterInterrupt
  | setInterruptState => .setInterruptState
  | connectFlags _ _ => .connectFlags

/-- The arguments of `QDP_FIRST_CALL`, where the method has it. -/
def firstCall : HookCall → Option (List Char)
  | hasDDCConnect => some "-> true".toList
  | getDDCBlock bn bt =>
      some ("bn=".toList ++ Nat.toDigits 10 bn.toNat ++ " bt=".toList ++ Nat.toDigits 10 bt.toNat)
  | getDisplayModeCount => some ("-> ".toList ++ Nat.toDigits 10 modes.length)
  | getDisplayModes => some ("(n=".toList ++ Nat.toDigits 10 modes.length ++ ")".toList)
  | getInformationForDisplayMode mode _ => some ("mode=".toList ++ signedDigits mode)
  | getAttribute attr => some ("attr=0x".toList ++ hexDigits attr)
  | getAttributeForConnection ci attr =>
      some ("ci=".toList ++ signedDigits ci ++ " attr=0x".toList ++ hexDigits attr)
  | registerForInterruptType type => some ("type=0x".toList ++ hexDigits type)
  | connectFlags ci modeID =>
      some ("ci=".toList ++ signedDigits ci ++ " mode=".toList ++ signedDigits modeID)
  | _ => none

/-- The call asks for the mode with the index. -/
def asksFor (i : ℕ) : HookCall → Bool
  | getInformationForDisplayMode mode true => (findMode mode).any fun p => p.1 == i
  | _ => false

end HookCall

/-- A line that the extension writes. -/
inductive QDPLine
  | starting
  | routed (rc n : Int32)
  | first (c : HookCall)
  | enabled (r : UInt32) (vram : UInt64)
  | skippingEnableController
  | skippingSetupForCurrentConfig

namespace QDPLine

/-- The first word of a line, after `QDP:`. -/
def word : QDPLine → String
  | starting => "starting"
  | routed _ _ => "mp_route_on_publish"
  | first c => c.hook.name
  | enabled _ _ => "enableController"
  | skippingEnableController => "orgEnableController"
  | skippingSetupForCurrentConfig => "orgSetupForCurrentConfig"

/-- What follows the word. -/
def rest : QDPLine → List Char
  | starting => "(mos15-patcher edition)".toList
  | routed rc n => "returned ".toList ++ signedDigits rc ++ " (n=".toList ++ signedDigits n ++
      " routes)".toList
  | first c => "called ".toList ++ c.firstCall.getD []
  | enabled r vram => "-> 0x".toList ++ hexDigits r ++ " (VRAM=".toList ++
      Nat.toDigits 10 (vram.toNat / (1024 * 1024)) ++ "MB)".toList
  | skippingEnableController => "NULL — skipping".toList
  | skippingSetupForCurrentConfig => "NULL — skipping".toList

/-- The text of a line. -/
def text (line : QDPLine) : List Char :=
  "QDP: ".toList ++ (line.word.toList ++ ' ' :: line.rest)

end QDPLine

/-- A line of `QDPCallCounts`. -/
def countLine (entry : QDPHook × UInt32) : List Char :=
  entry.1.name.toList ++ "=".toList ++ Nat.toDigits 10 entry.2.toNat

/-! ### The shared data -/

/-- What a call does next. -/
inductive HookPc
  /-- It counts itself for `QDP_FIRST_CALL`. -/
  | first (c : HookCall)
  /-- The rest of the method. -/
  | body (c : HookCall)
  /-- It adds a mode to `gModesQueriedMask`. -/
  | orMask (i : ℕ)
  /-- It stores `gCurrentWidth`. -/
  | setWidth (m : ModeInfo)
  /-- It stores `gCurrentHeight`. -/
  | setHeight (m : ModeInfo)
  /-- It reads `gCurrentWidth`. -/
  | readWidth
  /-- It reads `gCurrentHeight`. -/
  | readHeight (width : UInt32)
  /-- It reads the counters of `rest`, since as many calls had been made as `began` says. -/
  | readCounts (began : ℕ) (entries : List (QDPHook × UInt32)) (rest : List QDPHook)
  /-- It reads `gModesQueriedMask`. -/
  | readMask
  /-- It publishes the mask. -/
  | publishMask (mask : UInt64)
  deriving DecidableEq

/-- `QDPCallCounts`, with the numbers of calls made when the first counter was read and when the
property was set. -/
structure CallCounts where
  began : ℕ
  ended : ℕ
  entries : List (QDPHook × UInt32)

/-- The strings of the property. -/
def CallCounts.lines (c : CallCounts) : List (List Char) := c.entries.map countLine

/-- The data of the extension, and what it has done. -/
structure DisplayHooks where
  /-- `gHookCounters` -/
  hookCounters : QDPHook → UInt32
  /-- The counters of `QDP_FIRST_CALL`. -/
  firstCalls : QDPHook → UInt32
  /-- `gModesQueriedMask` -/
  modesQueriedMask : UInt64
  /-- `gCurrentWidth` and `gCurrentHeight`. -/
  currentWidth : UInt32
  currentHeight : UInt32
  /-- The mode that was set last. -/
  lastSet : ModeInfo
  /-- The sizes that `getApertureRange` has read, with the mode that was set last. -/
  apertures : List (UInt32 × UInt32 × ModeInfo)
  /-- The property `QDPCallCounts`. -/
  callCounts : Option CallCounts
  /-- The property `QDPModesQueriedMask`. -/
  queriedMask : Option UInt64
  log : List QDPLine
  /-- The calls under way. -/
  threads : Multiset HookPc
  /-- The calls that have been made. -/
  calls : List HookCall
  /-- How many strings for `QDPCallCounts` could not be made. -/
  failures : ℕ

/-- What happens next. -/
inductive HookAction
  | call (c : HookCall)
  /-- A call goes on; `made` tells whether the string could be made, if it makes one. -/
  | resume (pc : HookPc) (made : Bool)

namespace DisplayHooks

/-- `qdp_start` -/
def start (rc n : Int32) : DisplayHooks where
  hookCounters := fun _ => 0
  firstCalls := fun _ => 0
  modesQueriedMask := 0
  currentWidth := 1920
  currentHeight := 1080
  lastSet := ⟨1, 1920, 1080, sixtyHertz⟩
  apertures := []
  callCounts := none
  queriedMask := none
  log := [.starting, .routed rc n]
  threads := 0
  calls := []
  failures := 0

/-- How often the method has been called. -/
def called (w : DisplayHooks) (hook : QDPHook) : ℕ := w.calls.countP fun c => c.hook == hook

/-- How a call begins, after it has been counted. -/
def entry (c : HookCall) : HookPc := if c.firstCall.isSome then .first c else .body c

/-- `QDP_COUNT`, the first thing that every method does. -/
def call (w : DisplayHooks) (c : HookCall) : DisplayHooks :=
  { w with
    hookCounters := Function.update w.hookCounters c.hook (w.hookCounters c.hook + 1)
    calls := w.calls ++ [c]
    threads := entry c ::ₘ w.threads }

/-- The lines of a method, but for that of its first call. -/
def bodyLog : HookCall → List QDPLine
  | .enableController none => [.skippingEnableController]
  | .enableController (some (r, vram)) => [.enabled r vram]
  | .setupForCurrentConfig false _ _ => [.skippingSetupForCurrentConfig]
  | _ => []

/-- What the body of a method goes on to do. -/
def bodyNext (w : DisplayHooks) : HookCall → Option HookPc
  | .getInformationForDisplayMode mode true => (findMode mode).map fun p => .orMask p.1
  | .setDisplayMode mode => (findMode mode).map fun p => .setWidth p.2
  | .getApertureRange true => some .readWidth
  | .setupForCurrentConfig true true true => some (.readCounts w.calls.length [] QDPHook.all)
  | .setupForCurrentConfig true true false => some .readMask
  | _ => none

/-- What an access does to the shared data. -/
def effect (w : DisplayHooks) (made : Bool) : HookPc → DisplayHooks
  | .first c =>
      { w with
        firstCalls := Function.update w.firstCalls c.hook (w.firstCalls c.hook + 1)
        log := if w.firstCalls c.hook = 0 then w.log ++ [.first c] else w.log }
  | .body c => { w with log := w.log ++ bodyLog c }
  | .orMask i => { w with modesQueriedMask := w.modesQueriedMask ||| ((1 : UInt64) <<< i.toUInt64) }
  | .setWidth m => { w with currentWidth := m.width }
  | .setHeight m => { w with currentHeight := m.height, lastSet := m }
  | .readWidth => w
  | .readHeight width =>
      { w with apertures := w.apertures ++ [(width, w.currentHeight, w.lastSet)] }
  | .readCounts _ _ (_ :: _) => if made then w else { w with failures := w.failures + 1 }
  | .readCounts began entries [] =>
      { w with callCounts := some ⟨began, w.calls.length, entries⟩ }
  | .readMask => w
  | .publishMask mask => { w with queriedMask := some mask }

/-- What the call does after the access. -/
def following (w : DisplayHooks) (made : Bool) : HookPc → Option HookPc
  | .first c => some (.body c)
  | .body c => w.bodyNext c
  | .orMask _ => none
  | .setWidth m => some (.setHeight m)
  | .setHeight _ => none
  | .readWidth => some (.readHeight w.currentWidth)
  | .readHeight _ => none
  | .readCounts began entries (hook :: rest) =>
      some (.readCounts began
        (if made then entries ++ [(hook, w.hookCounters hook)] else entries) rest)
  | .readCounts _ _ [] => some .readMask
  | .readMask => some (.publishMask w.modesQueriedMask)
  | .publishMask _ => none

/-- The next access of a call. -/
def resume (w : DisplayHooks) (made : Bool) (pc : HookPc) : DisplayHooks :=
  { w.effect made pc with
    threads := (w.following made pc).elim (w.threads.erase pc) (· ::ₘ w.threads.erase pc) }

/-- The call that an action makes. -/
def called? : HookAction → Option HookCall
  | .call c => some c
  | .resume _ _ => none

/-- The step function. -/
def step (w : DisplayHooks) : HookAction → Option DisplayHooks
  | .call c => some (w.call c)
  | .resume pc made => if pc ∈ w.threads then some (w.resume made pc) else none

variable {w t : DisplayHooks} {P : HookCall → Bool} {Q : HookPc → Bool} {d : ℕ}

/-! ### Ledgers -/

/-- The calls of a kind: some wait for their effect, `d` of them have had it. -/
def Ledger (P : HookCall → Bool) (Q : HookPc → Bool) (d : ℕ) (w : DisplayHooks) : Prop :=
  w.calls.countP P = w.threads.countP (fun pc => Q pc = true) + d

/-- A call is entered into the ledger when it begins to wait. -/
theorem Ledger.call (h : Ledger P Q d w) {c : HookCall} (hentry : Q (entry c) = P c) :
    Ledger P Q d (w.call c) := by
  change (w.calls ++ [c]).countP P =
    (entry c ::ₘ w.threads).countP (fun pc => Q pc = true) + d
  rw [List.countP_append, List.countP_singleton, Multiset.countP_cons, h, hentry]
  omega

/-- How many calls have their effect when the call `pc` goes on as `next`. -/
def gain (Q : HookPc → Bool) (pc : HookPc) (next : Option HookPc) : ℕ :=
  if Q pc && !next.any Q then 1 else 0

/-- A call that goes on is not a new one. -/
theorem resume_calls (w : DisplayHooks) (made : Bool) (pc : HookPc) :
    (w.resume made pc).calls = w.calls := by
  rw [resume, effect.eq_def]
  split <;> first | rfl | (split <;> rfl)

/-- How the number of waiting calls changes when one of them goes on. -/
theorem countP_resume {pc : HookPc} {made : Bool} (hpc : pc ∈ w.threads)
    (hnext : (w.following made pc).any Q = true → Q pc = true) :
    w.threads.countP (fun pc => Q pc = true) =
      (w.resume made pc).threads.countP (fun pc => Q pc = true) +
        gain Q pc (w.following made pc) := by
  have herase := congrArg (Multiset.countP fun pc => Q pc = true) (Multiset.cons_erase hpc)
  rw [← herase, Multiset.countP_cons, gain, DisplayHooks.resume]
  cases hfollowing : w.following made pc with
  | none => cases hq : Q pc <;> simp
  | some next =>
    rw [hfollowing] at hnext
    cases hq : Q pc <;> cases hn : Q next <;> simp_all

/-- A call that goes on moves in the ledger from those that wait to those that are done. -/
theorem Ledger.resume (h : Ledger P Q d w) (made : Bool) {pc : HookPc} (hpc : pc ∈ w.threads)
    (hnext : (w.following made pc).any Q = true → Q pc = true) :
    Ledger P Q (d + gain Q pc (w.following made pc)) (w.resume made pc) := by
  rw [Ledger, resume_calls, h, countP_resume hpc hnext]
  omega

/-- What a step is. -/
theorem step_cases {a : HookAction} (hstep : w.step a = some t) :
    (∃ c, a = .call c ∧ t = w.call c) ∨
      ∃ pc made, a = .resume pc made ∧ pc ∈ w.threads ∧ t = w.resume made pc := by
  cases a with
  | call c => exact .inl ⟨c, rfl, (Option.some.inj hstep).symm⟩
  | resume pc made =>
    rw [step] at hstep
    split at hstep
    · rename_i hpc
      exact .inr ⟨pc, made, rfl, hpc, (Option.some.inj hstep).symm⟩
    · cases hstep

/-- What the body of a method may go on to do. -/
theorem bodyNext_cases {c : HookCall} {next : HookPc} (h : w.bodyNext c = some next) :
    (∃ i, next = .orMask i) ∨ (∃ m ∈ modes, next = .setWidth m) ∨ next = .readWidth ∨
      next = .readCounts w.calls.length [] QDPHook.all ∨ next = .readMask := by
  cases c with
  | getInformationForDisplayMode mode info =>
    cases info with
    | false => cases h
    | true =>
      obtain ⟨p, -, rfl⟩ := Option.map_eq_some_iff.mp h
      exact .inl ⟨_, rfl⟩
  | setDisplayMode mode =>
    obtain ⟨p, hp, rfl⟩ := Option.map_eq_some_iff.mp h
    exact .inr (.inl ⟨_, (findMode_eq_some_iff.mp hp).mem, rfl⟩)
  | getApertureRange bar1 =>
    cases bar1 with
    | false => cases h
    | true => exact .inr (.inr (.inl (Option.some.inj h).symm))
  | setupForCurrentConfig org fb array =>
    cases org <;> cases fb <;> cases array
    case true.true.true => exact .inr (.inr (.inr (.inl (Option.some.inj h).symm)))
    case true.true.false => exact .inr (.inr (.inr (.inr (Option.some.inj h).symm)))
    all_goals cases h
  | _ => cases h

/-! ### The counters -/

/-- A call is counted for its own method only. -/
theorem called_call (w : DisplayHooks) (c : HookCall) (hook : QDPHook) :
    (w.call c).called hook = w.called hook + if c.hook = hook then 1 else 0 := by
  change (w.calls ++ [c]).countP _ = _
  rw [List.countP_append, List.countP_singleton, beq_eq_decide]
  by_cases hc : c.hook = hook
  · rw [if_pos hc, if_pos (decide_eq_true hc)]
    rfl
  · rw [if_neg hc, if_neg (by rw [decide_eq_false hc]; exact Bool.false_ne_true)]
    rfl

/-- Only the beginning of a call touches the counters. -/
theorem resume_hookCounters (w : DisplayHooks) (made : Bool) (pc : HookPc) :
    (w.resume made pc).hookCounters = w.hookCounters := by
  rw [resume, effect.eq_def]
  split <;> first | rfl | (split <;> rfl)

/-- The counters count the calls. -/
def CountersRight (w : DisplayHooks) : Prop :=
  ∀ hook, w.hookCounters hook = UInt32.ofNat (w.called hook)

/-- Every step keeps the counters right. -/
theorem CountersRight.step (h : CountersRight w) {a : HookAction} (hstep : w.step a = some t) :
    CountersRight t := by
  obtain ⟨c, rfl, rfl⟩ | ⟨pc, made, rfl, -, rfl⟩ := step_cases hstep
  · intro hook
    rw [called_call]
    change Function.update w.hookCounters c.hook (w.hookCounters c.hook + 1) hook = _
    by_cases hc : c.hook = hook
    · rw [if_pos hc, ← hc, Function.update_self, h, UInt32.ofNat_add]
      rfl
    · rw [if_neg hc, Function.update_of_ne (Ne.symm hc), h]
      rfl
  · intro hook
    rw [resume_hookCounters, h, called, called, resume_calls]

/-! ### The lines -/

/-- The call counts itself for `QDP_FIRST_CALL` of the method. -/
def counted (hook : QDPHook) (c : HookCall) : Bool := c.hook == hook && c.firstCall.isSome

/-- It has not done so yet. -/
def waits (hook : QDPHook) : HookPc → Bool
  | .first c => c.hook == hook
  | _ => false

/-- The line of the first call. -/
def isFirst (hook : QDPHook) : QDPLine → Bool
  | .first c => c.hook == hook
  | _ => false

/-- A call waits for `QDP_FIRST_CALL` exactly if its method has one. -/
theorem waits_entry (hook : QDPHook) (c : HookCall) : waits hook (entry c) = counted hook c := by
  rw [entry, counted]
  cases c.firstCall.isSome with
  | true => exact (Bool.and_true _).symm
  | false => exact (Bool.and_false _).symm

/-- Behind the body of a method there is no `QDP_FIRST_CALL`. -/
theorem bodyNext_waits (w : DisplayHooks) (hook : QDPHook) (c : HookCall) :
    (w.bodyNext c).any (waits hook) = false := by
  cases hnext : w.bodyNext c with
  | none => rfl
  | some next =>
    obtain ⟨i, rfl⟩ | ⟨m, -, rfl⟩ | rfl | rfl | rfl := bodyNext_cases hnext <;> rfl

/-- No access leads back to `QDP_FIRST_CALL`. -/
theorem following_waits (w : DisplayHooks) (made : Bool) (hook : QDPHook) (pc : HookPc) :
    (w.following made pc).any (waits hook) = false := by
  rw [following.eq_def]
  split
  case h_2 c => exact w.bodyNext_waits hook c
  all_goals rfl

/-- The body of a method does not write the line of a first call. -/
theorem bodyLog_isFirst (hook : QDPHook) (c : HookCall) :
    (bodyLog c).countP (isFirst hook) = 0 := by
  rw [bodyLog.eq_def]
  split <;> rfl

/-- **The invariant** of the first calls of a method: with every 2³² calls there is a line. -/
def FirstLogged (hook : QDPHook) (w : DisplayHooks) : Prop :=
  ∃ d, Ledger (counted hook) (waits hook) d w ∧ w.firstCalls hook = UInt32.ofNat d ∧
    w.log.countP (isFirst hook) = (d + 4294967295) / 4294967296

/-- What is no first call keeps the invariant of the first calls. -/
theorem FirstLogged.of_same {hook : QDPHook} (h : FirstLogged hook w) {pc : HookPc} {made : Bool}
    (hpc : pc ∈ w.threads) (hwaits : waits hook pc = false)
    (hfirst : (w.resume made pc).firstCalls hook = w.firstCalls hook)
    (hlog : (w.resume made pc).log.countP (isFirst hook) = w.log.countP (isFirst hook)) :
    FirstLogged hook (w.resume made pc) := by
  obtain ⟨d, hledger, hcount, hlines⟩ := h
  have hnext := w.following_waits made hook pc
  have hresumed := hledger.resume made hpc (by rw [hnext]; rintro ⟨⟩)
  rw [gain, hwaits, Bool.false_and, if_neg Bool.false_ne_true] at hresumed
  exact ⟨d, hresumed, hfirst.trans hcount, hlog.trans hlines⟩

/-- Every step keeps the lines of the first calls. -/
theorem FirstLogged.step {hook : QDPHook} (h : FirstLogged hook w) {a : HookAction}
    (hstep : w.step a = some t) : FirstLogged hook t := by
  obtain ⟨c, rfl, rfl⟩ | ⟨pc, made, rfl, hpc, rfl⟩ := step_cases hstep
  · obtain ⟨d, hledger, hcount, hlines⟩ := h
    exact ⟨d, hledger.call (waits_entry hook c), hcount, hlines⟩
  cases pc with
  | first c =>
    by_cases hc : c.hook = hook
    swap
    · refine h.of_same hpc (beq_false_of_ne hc) (Function.update_of_ne (Ne.symm hc) _ _) ?_
      change (if w.firstCalls c.hook = 0 then w.log ++ [QDPLine.first c] else w.log).countP _ = _
      split
      · rw [List.countP_append, List.countP_singleton, isFirst, beq_false_of_ne hc]
        rfl
      · rfl
    obtain ⟨d, hledger, hcount, hlines⟩ := h
    have hnext := w.following_waits made hook (.first c)
    have hresumed := hledger.resume made hpc (by rw [hnext]; rintro ⟨⟩)
    rw [gain, hnext, waits, hc, beq_self_eq_true, Bool.not_false, Bool.and_true, if_pos rfl]
      at hresumed
    refine ⟨d + 1, hresumed, ?_, ?_⟩
    · change Function.update w.firstCalls c.hook (w.firstCalls c.hook + 1) hook = _
      rw [hc, Function.update_self, hcount, UInt32.ofNat_add]
      rfl
    · have hzero : w.firstCalls c.hook = 0 ↔ d % 4294967296 = 0 := by
        rw [hc, hcount, ← UInt32.toNat_inj, UInt32.toNat_ofNat']
        rfl
      change (if w.firstCalls c.hook = 0 then w.log ++ [QDPLine.first c] else w.log).countP _ = _
      by_cases hd : d % 4294967296 = 0
      · rw [if_pos (hzero.mpr hd), List.countP_append, List.countP_singleton, isFirst, hc,
          beq_self_eq_true, if_pos rfl, hlines]
        omega
      · rw [if_neg (mt hzero.mp hd), hlines]
        omega
  | body c =>
    refine h.of_same hpc rfl rfl ?_
    change (w.log ++ bodyLog c).countP _ = _
    rw [List.countP_append, bodyLog_isFirst, Nat.add_zero]
  | readCounts began entries rest =>
    cases rest with
    | nil => exact h.of_same hpc rfl rfl rfl
    | cons next rest =>
      cases made with
      | true => exact h.of_same hpc rfl rfl rfl
      | false => exact h.of_same hpc rfl rfl rfl
  | _ => exact h.of_same hpc rfl rfl rfl

/-! ### Looking for a line -/

/-- The methods that `verify-modes.sh` looks for. -/
def criticalHooks : List QDPHook :=
  [.enableController, .hasDDCConnect, .getDDCBlock, .getDisplayModeCount, .getDisplayModes,
    .getInformationForDisplayMode]

/-- `grep -q "QDP: $hook"`, for one line. -/
def grepHook (hook : QDPHook) (line : QDPLine) : Prop :=
  "QDP: ".toList ++ hook.name.toList <:+: line.text

/-- Step 5 of `verify-modes.sh` for one method, on what `docker logs` prints: the lines of the
extension, and those of others as `none`, which do not begin with `QDP: `. It reads them with
`--tail 5000`. -/
def HookFired (hook : QDPHook) (docker : List (Option QDPLine)) : Prop :=
  ∃ line, some line ∈ docker.rtake 5000 ∧ grepHook hook line

/-- The digits of a number are no `Q`. -/
theorem notMem_toDigits {b : ℕ} (hb : 1 < b) (hdigits : b ≤ 16) (n : ℕ) :
    'Q' ∉ Nat.toDigits b n := by
  have hdigit : ∀ k < 16, 'Q' ≠ Nat.digitChar k := by decide
  induction n using Nat.strongRecOn with
  | ind n ih =>
    rw [Nat.toDigits_eq_if hb]
    split
    · rename_i hlt
      rw [List.mem_singleton]
      exact hdigit n (by omega)
    · rename_i hge
      rw [List.mem_append, List.mem_singleton]
      rintro (hmem | hlast)
      · exact ih (n / b) (Nat.div_lt_self (by omega) hb) hmem
      · exact hdigit _ ((Nat.mod_lt n (by omega)).trans_le hdigits) hlast

/-- What `%d` prints has no `Q`. -/
theorem notMem_signedDigits (n : Int32) : 'Q' ∉ signedDigits n := by
  have hdigits := notMem_toDigits (b := 10) (by decide) (by decide) n.toInt.natAbs
  rw [signedDigits]
  split
  · rw [List.mem_cons]
    rintro (hminus | hmem)
    · exact absurd hminus (by decide)
    · exact hdigits hmem
  · exact hdigits

/-- What `%x` prints has no `Q`. -/
theorem notMem_hexDigits (n : UInt32) : 'Q' ∉ hexDigits n :=
  notMem_toDigits (b := 16) (by decide) (by decide) n.toNat

/-- Decimal digits are no `Q`. -/
theorem notMem_decimal (n : ℕ) : 'Q' ∉ Nat.toDigits 10 n :=
  notMem_toDigits (by decide) (by decide) n

/-- Two texts without a `Q` have none together. -/
theorem notMem_append {l₁ l₂ : List Char} (h₁ : 'Q' ∉ l₁) (h₂ : 'Q' ∉ l₂) : 'Q' ∉ l₁ ++ l₂ :=
  fun hmem => (List.mem_append.mp hmem).elim h₁ h₂

/-- The text of a first call has no `Q`. -/
theorem notMem_firstCall (c : HookCall) : 'Q' ∉ c.firstCall.getD [] := by
  cases c with
  | hasDDCConnect => exact of_decide_eq_true rfl
  | getDDCBlock bn bt =>
    exact notMem_append (notMem_append (notMem_append (by decide) (notMem_decimal _)) (by decide))
      (notMem_decimal _)
  | getDisplayModeCount => exact notMem_append (by decide) (notMem_decimal _)
  | getDisplayModes =>
    exact notMem_append (notMem_append (by decide) (notMem_decimal _)) (by decide)
  | getInformationForDisplayMode mode info =>
    exact notMem_append (by decide) (notMem_signedDigits _)
  | getAttribute attr => exact notMem_append (by decide) (notMem_hexDigits _)
  | getAttributeForConnection ci attr =>
    exact notMem_append (notMem_append (notMem_append (by decide) (notMem_signedDigits _))
      (by decide)) (notMem_hexDigits _)
  | registerForInterruptType type => exact notMem_append (by decide) (notMem_hexDigits _)
  | connectFlags ci modeID =>
    exact notMem_append (notMem_append (notMem_append (by decide) (notMem_signedDigits _))
      (by decide)) (notMem_signedDigits _)
  | _ => exact List.not_mem_nil

/-- Behind its first word, a line has no `Q`. -/
theorem notMem_rest (line : QDPLine) : 'Q' ∉ line.rest := by
  cases line with
  | routed rc n =>
    exact notMem_append (notMem_append (notMem_append (notMem_append (by decide)
      (notMem_signedDigits _)) (by decide)) (notMem_signedDigits _)) (by decide)
  | first c => exact notMem_append (by decide) (notMem_firstCall c)
  | enabled r vram =>
    exact notMem_append (notMem_append (notMem_append (notMem_append (by decide)
      (notMem_hexDigits _)) (by decide)) (notMem_decimal _)) (by decide)
  | starting | skippingEnableController | skippingSetupForCurrentConfig => exact by decide

/-- The words that a line may begin with. -/
def words : List String :=
  QDPHook.all.map QDPHook.name ++
    ["starting", "mp_route_on_publish", "orgEnableController", "orgSetupForCurrentConfig"]

/-- Every method's name may begin a line. -/
theorem name_mem_words (hook : QDPHook) : hook.name ∈ words :=
  List.mem_append_left _ (List.mem_map_of_mem hook.mem_all)

/-- Every line begins with one of the words. -/
theorem word_mem_words (line : QDPLine) : line.word ∈ words := by
  cases line with
  | first c => exact name_mem_words c.hook
  | starting | routed | enabled | skippingEnableController | skippingSetupForCurrentConfig =>
    exact of_decide_eq_true rfl

/-- The words are free of what separates them, and of the `Q` that begins a line. -/
theorem words_plain : ∀ word ∈ words,
    'Q' ∉ word.toList ∧ ' ' ∉ word.toList ∧ '=' ∉ word.toList := by
  decide +kernel

/-- No other word begins with the name of a critical method. -/
theorem word_eq_of_prefix : ∀ hook ∈ criticalHooks, ∀ word ∈ words,
    hook.name.toList <+: word.toList → word = hook.name := by
  decide +kernel

/-- What begins with a character that comes no more is found at the beginning only. -/
theorem infix_iff_prefix {a : Char} {p l : List Char} (ha : a ∉ l) :
    a :: p <:+: a :: l ↔ a :: p <+: a :: l := by
  rw [List.infix_cons_iff, or_iff_left_iff_imp]
  exact fun hfound => absurd (hfound.subset List.mem_cons_self) ha

/-- What has no space is found before the first one only. -/
theorem prefix_of_prefix_append {p l r : List Char} (hp : ' ' ∉ p) (h : p <+: l ++ ' ' :: r) :
    p <+: l := by
  rcases List.prefix_or_prefix_of_prefix h (List.prefix_append l (' ' :: r)) with hshort | hlong
  · exact hshort
  · obtain ⟨q, rfl⟩ := hlong
    rw [List.prefix_append_right_inj] at h
    cases q with
    | nil => rw [List.append_nil]
    | cons b q =>
      obtain rfl := (List.cons_prefix_cons.mp h).1
      exact absurd (List.mem_append_right l List.mem_cons_self) hp

/-- The lines that are found for a critical method. -/
theorem grepHook_iff {hook : QDPHook} (hcritical : hook ∈ criticalHooks) (line : QDPLine) :
    grepHook hook line ↔ line.word = hook.name := by
  have hword := words_plain _ (word_mem_words line)
  have hname := (words_plain _ (name_mem_words hook)).2.1
  have hrest : 'Q' ∉ "DP: ".toList ++ (line.word.toList ++ ' ' :: line.rest) := by
    refine notMem_append (by decide) (notMem_append hword.1 ?_)
    rw [List.mem_cons]
    exact fun hmem => hmem.elim (by decide) (notMem_rest line)
  have hstart : grepHook hook line ↔
      hook.name.toList <+: line.word.toList ++ ' ' :: line.rest := by
    rw [← List.prefix_append_right_inj "QDP: ".toList]
    exact infix_iff_prefix hrest
  rw [hstart]
  constructor
  · intro hprefix
    exact word_eq_of_prefix hook hcritical _ (word_mem_words line)
      (prefix_of_prefix_append hname hprefix)
  · intro heq
    rw [heq]
    exact List.prefix_append _ _

/-- The call finds the original method of `enableController`. -/
def enables : HookCall → Bool
  | .enableController (some _) => true
  | _ => false

/-- It has not written its line yet. -/
def enabling : HookPc → Bool
  | .first c => enables c
  | .body c => enables c
  | _ => false

/-- The line of `enableController`. -/
def isEnabled : QDPLine → Bool
  | .enabled _ _ => true
  | _ => false

/-- **The invariant** of the lines of `enableController`. -/
def EnabledLogged (w : DisplayHooks) : Prop :=
  Ledger enables enabling (w.log.countP isEnabled) w

/-- Behind the body of a method no line of `enableController` is written. -/
theorem bodyNext_enabling (w : DisplayHooks) (c : HookCall) :
    (w.bodyNext c).any enabling = false := by
  cases hnext : w.bodyNext c with
  | none => rfl
  | some next =>
    obtain ⟨i, rfl⟩ | ⟨m, -, rfl⟩ | rfl | rfl | rfl := bodyNext_cases hnext <;> rfl

/-- The body of `enableController` writes its line exactly when the original is known. -/
theorem bodyLog_isEnabled (c : HookCall) :
    (bodyLog c).countP isEnabled = if enables c = true then 1 else 0 := by
  cases c with
  | enableController org => cases org <;> rfl
  | setupForCurrentConfig org fb array => cases org <;> rfl
  | _ => rfl

/-- What writes no line of `enableController` keeps the invariant of these lines. -/
theorem EnabledLogged.of_same (h : EnabledLogged w) {pc : HookPc} {made : Bool}
    (hpc : pc ∈ w.threads) (hsame : (w.following made pc).any enabling = enabling pc)
    (hlog : (w.resume made pc).log.countP isEnabled = w.log.countP isEnabled) :
    EnabledLogged (w.resume made pc) := by
  have hresumed := Ledger.resume h made hpc (by rw [hsame]; exact id)
  rw [gain, hsame, Bool.and_not_self, if_neg Bool.false_ne_true] at hresumed
  rw [EnabledLogged, hlog]
  exact hresumed

/-- Every step keeps the lines of `enableController`. -/
theorem EnabledLogged.step (h : EnabledLogged w) {a : HookAction} (hstep : w.step a = some t) :
    EnabledLogged t := by
  obtain ⟨c, rfl, rfl⟩ | ⟨pc, made, rfl, hpc, rfl⟩ := step_cases hstep
  · refine Ledger.call h ?_
    rw [entry]
    split <;> rfl
  cases pc with
  | first c =>
    refine h.of_same hpc rfl ?_
    change (if w.firstCalls c.hook = 0 then w.log ++ [QDPLine.first c] else w.log).countP _ = _
    split
    · rw [List.countP_append]
      rfl
    · rfl
  | body c =>
    have hnext : (w.following made (.body c)).any enabling = false := w.bodyNext_enabling c
    have hresumed := Ledger.resume h made hpc (by rw [hnext]; rintro ⟨⟩)
    have hlog : (w.resume made (.body c)).log.countP isEnabled =
        w.log.countP isEnabled + if enables c = true then 1 else 0 := by
      change (w.log ++ bodyLog c).countP _ = _
      rw [List.countP_append, bodyLog_isEnabled]
    rw [gain, hnext, Bool.not_false, Bool.and_true] at hresumed
    rw [EnabledLogged, hlog]
    exact hresumed
  | readCounts began entries rest =>
    cases rest with
    | nil => exact h.of_same hpc rfl rfl
    | cons next rest =>
      cases made with
      | true => exact h.of_same hpc rfl rfl
      | false => exact h.of_same hpc rfl rfl
  | _ => exact h.of_same hpc rfl rfl

/-! ### The mask -/

/-- The call asks for the mode with the index, and has not added it to the mask yet. -/
def asking (i : ℕ) : HookPc → Bool
  | .first c => c.asksFor i
  | .body c => c.asksFor i
  | .orMask j => j == i
  | _ => false

/-- **The invariant** of a bit of the mask. -/
def BitAsked (i : ℕ) (w : DisplayHooks) : Prop :=
  ∃ d, Ledger (HookCall.asksFor i) (asking i) d w ∧
    (w.modesQueriedMask.toNat.testBit i = true ↔ 0 < d)

/-- A call asks for a mode if it describes that mode of the table. -/
theorem asksFor_iff {i : ℕ} {c : HookCall} : c.asksFor i = true ↔
    ∃ mode m, c = .getInformationForDisplayMode mode true ∧ Described mode i m := by
  constructor
  · intro h
    cases c with
    | getInformationForDisplayMode mode info =>
      cases info with
      | false => cases h
      | true =>
        change (findMode mode).any _ = true at h
        cases hfind : findMode mode with
        | none =>
          rw [hfind] at h
          cases h
        | some p =>
          rw [hfind] at h
          obtain rfl := beq_iff_eq.mp h
          exact ⟨mode, p.2, rfl, findMode_eq_some_iff.mp hfind⟩
    | _ => cases h
  · rintro ⟨mode, m, rfl, hdescribed⟩
    rw [HookCall.asksFor, findMode_eq_some_iff.mpr hdescribed]
    exact beq_self_eq_true i

/-- The modes that are asked for are those of the table. -/
theorem lt_of_asksFor {i : ℕ} {c : HookCall} (h : c.asksFor i = true) : i < 8 := by
  obtain ⟨mode, m, -, hdescribed⟩ := asksFor_iff.mp h
  exact hdescribed.lt

/-- A call for the information of a mode goes on to set the bit of that mode. -/
theorem bodyNext_asking (w : DisplayHooks) (i : ℕ) (c : HookCall) :
    (w.bodyNext c).any (asking i) = c.asksFor i := by
  cases c with
  | getInformationForDisplayMode mode info =>
    cases info with
    | false => rfl
    | true => exact Option.any_map
  | setDisplayMode mode =>
    change ((findMode mode).map _).any _ = false
    cases findMode mode <;> rfl
  | getApertureRange bar1 => cases bar1 <;> rfl
  | setupForCurrentConfig org fb array => cases org <;> cases fb <;> cases array <;> rfl
  | _ => rfl

/-- What adds nothing to the mask keeps the invariant of a bit. -/
theorem BitAsked.of_same {i : ℕ} (h : BitAsked i w) {pc : HookPc} {made : Bool}
    (hpc : pc ∈ w.threads) (hsame : (w.following made pc).any (asking i) = asking i pc)
    (hmask : (w.resume made pc).modesQueriedMask = w.modesQueriedMask) :
    BitAsked i (w.resume made pc) := by
  obtain ⟨d, hledger, hbit⟩ := h
  have hresumed := hledger.resume made hpc (by rw [hsame]; exact id)
  rw [gain, hsame, Bool.and_not_self, if_neg Bool.false_ne_true] at hresumed
  exact ⟨d, hresumed, by rw [hmask]; exact hbit⟩

/-- Only modes of the table are added. -/
theorem lt_of_orMask {j : ℕ} (h : BitAsked j w) (hpc : HookPc.orMask j ∈ w.threads) : j < 8 := by
  obtain ⟨d, hledger, -⟩ := h
  have hwaiting : 0 < w.threads.countP fun pc => asking j pc = true :=
    Multiset.countP_pos.mpr ⟨_, hpc, beq_self_eq_true j⟩
  have hpos : 0 < w.calls.countP (HookCall.asksFor j) := by
    rw [hledger]
    exact Nat.lt_of_lt_of_le hwaiting (Nat.le_add_right _ _)
  obtain ⟨c, -, hc⟩ := List.countP_pos_iff.mp hpos
  exact lt_of_asksFor hc

/-- The bits of the mask after a mode has been added. -/
theorem testBit_orMask (mask : UInt64) {j : ℕ} (hj : j < 8) (i : ℕ) :
    (mask ||| ((1 : UInt64) <<< j.toUInt64)).toNat.testBit i =
      (mask.toNat.testBit i || decide (j = i)) := by
  have hone : ((1 : UInt64) <<< j.toUInt64).toNat = 2 ^ j := by
    have hall : ∀ k < 8, ((1 : UInt64) <<< k.toUInt64).toNat = 2 ^ k := by decide
    exact hall j hj
  rw [UInt64.toNat_or, Nat.testBit_or, hone, Nat.testBit_two_pow]

/-- Every step keeps the bits of the mask right. -/
theorem BitAsked.step (h : ∀ i, BitAsked i w) {a : HookAction} (hstep : w.step a = some t) :
    ∀ i, BitAsked i t := by
  intro i
  obtain ⟨c, rfl, rfl⟩ | ⟨pc, made, rfl, hpc, rfl⟩ := step_cases hstep
  · obtain ⟨d, hledger, hbit⟩ := h i
    refine ⟨d, hledger.call ?_, hbit⟩
    rw [entry]
    split <;> rfl
  cases pc with
  | body c => exact (h i).of_same hpc (w.bodyNext_asking i c) rfl
  | orMask j =>
    have hj := lt_of_orMask (h j) hpc
    obtain ⟨d, hledger, hbit⟩ := h i
    have hresumed := hledger.resume made hpc (by rintro ⟨⟩)
    refine ⟨_, hresumed, ?_⟩
    change (w.modesQueriedMask ||| ((1 : UInt64) <<< j.toUInt64)).toNat.testBit i = true ↔
      0 < d + if (j == i) && true then 1 else 0
    rw [testBit_orMask _ hj, Bool.and_true, Bool.or_eq_true, hbit, decide_eq_true_iff]
    by_cases hij : j = i
    · rw [hij, beq_self_eq_true, if_pos rfl]
      exact iff_of_true (.inr rfl) (Nat.succ_pos d)
    · rw [beq_false_of_ne hij, if_neg Bool.false_ne_true]
      exact or_iff_left hij
  | readCounts began entries rest =>
    cases rest with
    | nil => exact (h i).of_same hpc rfl rfl
    | cons next rest =>
      cases made with
      | true => exact (h i).of_same hpc rfl rfl
      | false => exact (h i).of_same hpc rfl rfl
  | _ => exact (h i).of_same hpc rfl rfl

/-- **The invariant** of the masks that have been read: what they have is still there. -/
structure MasksRead (w : DisplayHooks) : Prop where
  published : ∀ mask, w.queriedMask = some mask → ∀ i, mask.toNat.testBit i = true →
    w.modesQueriedMask.toNat.testBit i = true
  reading : ∀ mask, .publishMask mask ∈ w.threads → ∀ i, mask.toNat.testBit i = true →
    w.modesQueriedMask.toNat.testBit i = true

/-- The calls under way after a call has begun. -/
theorem mem_call {c : HookCall} {pc : HookPc} (h : pc ∈ (w.call c).threads) :
    pc = entry c ∨ pc ∈ w.threads :=
  Multiset.mem_cons.mp h

/-- The calls under way after one has gone on. -/
theorem mem_resume {made : Bool} {pc p : HookPc} (h : p ∈ (w.resume made pc).threads) :
    w.following made pc = some p ∨ p ∈ w.threads.erase pc := by
  change p ∈ (w.following made pc).elim _ _ at h
  cases hnext : w.following made pc with
  | none =>
    rw [hnext] at h
    exact .inr h
  | some next =>
    rw [hnext] at h
    rcases Multiset.mem_cons.mp h with rfl | hmem
    · exact .inl rfl
    · exact .inr hmem

/-- No access clears a bit of the mask. -/
theorem mask_le_resume {i : ℕ} (made : Bool) (pc : HookPc)
    (h : w.modesQueriedMask.toNat.testBit i = true) :
    (w.resume made pc).modesQueriedMask.toNat.testBit i = true := by
  cases pc with
  | orMask j =>
    change (w.modesQueriedMask ||| ((1 : UInt64) <<< j.toUInt64)).toNat.testBit i = true
    rw [UInt64.toNat_or, Nat.testBit_or, h, Bool.true_or]
  | readCounts began entries rest =>
    cases rest with
    | nil => exact h
    | cons next rest => cases made <;> exact h
  | _ => exact h

/-- The mask that is going to be published is the one that has just been read. -/
theorem following_publishMask {made : Bool} {pc : HookPc} {mask : UInt64}
    (h : w.following made pc = some (.publishMask mask)) : mask = w.modesQueriedMask := by
  cases pc with
  | body c =>
    obtain ⟨i, hi⟩ | ⟨m, -, hm⟩ | hw | hr | hk := bodyNext_cases h
    · cases hi
    · cases hm
    · cases hw
    · cases hr
    · cases hk
  | readCounts began entries rest => cases rest <;> cases h
  | readMask =>
    cases h
    rfl
  | _ => cases h

/-- Every step keeps the masks that are read within what has been asked for. -/
theorem MasksRead.step (h : MasksRead w) {a : HookAction} (hstep : w.step a = some t) :
    MasksRead t := by
  obtain ⟨c, rfl, rfl⟩ | ⟨pc, made, rfl, hpc, rfl⟩ := step_cases hstep
  · refine ⟨h.published, fun mask hmask => ?_⟩
    rcases mem_call hmask with hentry | hold
    · rw [entry] at hentry
      split at hentry <;> cases hentry
    · exact h.reading mask hold
  have hreading : ∀ mask, .publishMask mask ∈ (w.resume made pc).threads → ∀ i,
      mask.toNat.testBit i = true → (w.resume made pc).modesQueriedMask.toNat.testBit i = true := by
    intro mask hmask i hi
    refine mask_le_resume made pc ?_
    rcases mem_resume hmask with hnext | hold
    · rw [← following_publishMask hnext]
      exact hi
    · exact h.reading mask (Multiset.mem_of_mem_erase hold) i hi
  have hsame : (w.resume made pc).queriedMask = w.queriedMask → MasksRead (w.resume made pc) := by
    intro heq
    refine ⟨fun mask hmask i hi => ?_, hreading⟩
    rw [heq] at hmask
    exact mask_le_resume made pc (h.published mask hmask i hi)
  cases pc with
  | publishMask read =>
    refine ⟨fun mask hmask i hi => ?_, hreading⟩
    obtain rfl := Option.some.inj hmask
    exact mask_le_resume made _ (h.reading read hpc i hi)
  | readCounts began entries rest =>
    cases rest with
    | nil => exact hsame rfl
    | cons next rest => cases made <;> exact hsame rfl
  | _ => exact hsame rfl

/-! ### The counts that are published -/

/-- What has been read of the counters, between two numbers of calls. -/
structure Snapshot (calls : List HookCall) (began ended : ℕ)
    (entries : List (QDPHook × UInt32)) : Prop where
  le : began ≤ ended
  exact : ∀ e ∈ entries, ∃ k, began ≤ k ∧ k ≤ ended ∧
    e.2 = UInt32.ofNat ((calls.take k).countP fun c => c.hook == e.1)

namespace Snapshot

variable {calls : List HookCall} {began ended : ℕ} {entries : List (QDPHook × UInt32)}

/-- A snapshot stays one when its end is put off. -/
theorem later (h : Snapshot calls began ended entries) {later : ℕ} (hle : ended ≤ later) :
    Snapshot calls began later entries := by
  refine ⟨h.le.trans hle, fun e he => ?_⟩
  obtain ⟨k, hbegan, hended, hcount⟩ := h.exact e he
  exact ⟨k, hbegan, hended.trans hle, hcount⟩

/-- A snapshot stays one when further calls come. -/
theorem append (h : Snapshot calls began ended entries) (hended : ended ≤ calls.length)
    (more : List HookCall) : Snapshot (calls ++ more) began ended entries := by
  refine ⟨h.le, fun e he => ?_⟩
  obtain ⟨k, hbegan, hk, hcount⟩ := h.exact e he
  refine ⟨k, hbegan, hk, ?_⟩
  rw [List.take_append_of_le_length (hk.trans hended), hcount]

/-- One more counter is read. -/
theorem read (h : Snapshot calls began calls.length entries) (hook : QDPHook) :
    Snapshot calls began calls.length
      (entries ++ [(hook, UInt32.ofNat (calls.countP fun c => c.hook == hook))]) := by
  refine ⟨h.le, fun e he => ?_⟩
  rcases List.mem_append.mp he with hold | hnew
  · exact h.exact e hold
  · rw [List.mem_singleton.mp hnew]
    exact ⟨calls.length, h.le, Nat.le_refl _, by rw [List.take_length]⟩

end Snapshot

/-- The methods whose counts have been read; `complete` if every string could be made. -/
structure Listed (complete : Prop) (entries : List (QDPHook × UInt32)) (hooks : List QDPHook) :
    Prop where
  sublist : (entries.map Prod.fst).Sublist hooks
  eq : complete → entries.map Prod.fst = hooks

/-- **The invariant** of the counts that are read and published. -/
structure Snapshots (w : DisplayHooks) : Prop where
  counters : CountersRight w
  reading : ∀ began entries rest, .readCounts began entries rest ∈ w.threads →
    Snapshot w.calls began w.calls.length entries ∧
      ∃ done, done ++ rest = QDPHook.all ∧ Listed (w.failures = 0) entries done
  published : ∀ c, w.callCounts = some c → c.ended ≤ w.calls.length ∧
    Snapshot w.calls c.began c.ended c.entries ∧
      Listed (w.failures = 0) c.entries QDPHook.all

/-- A call that is about to read a counter has just begun to read them, or has read the one before.
-/
theorem following_readCounts {made : Bool} {pc : HookPc} {began : ℕ}
    {entries : List (QDPHook × UInt32)} {rest : List QDPHook}
    (h : w.following made pc = some (.readCounts began entries rest)) :
    (began = w.calls.length ∧ entries = [] ∧ rest = QDPHook.all) ∨
      ∃ old hook, pc = .readCounts began old (hook :: rest) ∧
        entries = if made then old ++ [(hook, w.hookCounters hook)] else old := by
  cases pc with
  | body c =>
    obtain ⟨i, hi⟩ | ⟨m, -, hm⟩ | hw | hr | hk := bodyNext_cases h
    · cases hi
    · cases hm
    · cases hw
    · cases hr
      exact .inl ⟨rfl, rfl, rfl⟩
    · cases hk
  | readCounts began old rest =>
    cases rest with
    | nil => cases h
    | cons hook rest =>
      cases h
      exact .inr ⟨old, hook, rfl, rfl⟩
  | _ => cases h

/-- A failure is not forgotten. -/
theorem failures_of_resume {made : Bool} {pc : HookPc} (h : (w.resume made pc).failures = 0) :
    w.failures = 0 := by
  cases pc with
  | readCounts began entries rest =>
    cases rest with
    | nil => exact h
    | cons next rest =>
      cases made with
      | true => exact h
      | false => exact absurd h (Nat.succ_ne_zero _)
  | _ => exact h

/-- The list need be complete only under the stronger condition. -/
theorem Listed.weaken {p q : Prop} {entries : List (QDPHook × UInt32)} {hooks : List QDPHook}
    (h : Listed p entries hooks) (hpq : q → p) : Listed q entries hooks :=
  ⟨h.sublist, fun hq => h.eq (hpq hq)⟩

namespace Snapshots

/-- A call does not disturb the snapshots. -/
theorem call (h : Snapshots w) (c : HookCall) : Snapshots (w.call c) := by
  have hlength : (w.call c).calls.length = w.calls.length + 1 := List.length_append
  refine ⟨h.counters.step (a := .call c) rfl, fun began entries rest hmem => ?_,
    fun counts hc => ?_⟩
  · rcases mem_call hmem with hentry | hold
    · rw [entry] at hentry
      split at hentry <;> cases hentry
    · obtain ⟨hsnapshot, hlisted⟩ := h.reading began entries rest hold
      refine ⟨(hsnapshot.append (Nat.le_refl _) [c]).later ?_, hlisted⟩
      rw [hlength]
      exact Nat.le_succ _
  · obtain ⟨hended, hsnapshot, hlisted⟩ := h.published counts hc
    refine ⟨?_, hsnapshot.append hended [c], hlisted⟩
    rw [hlength]
    exact Nat.le_succ_of_le hended

/-- One more counter has been read, or its string could not be made. -/
theorem reads (h : Snapshots w) {made : Bool} {began : ℕ} {old : List (QDPHook × UInt32)}
    {hook : QDPHook} {rest : List QDPHook}
    (hpc : .readCounts began old (hook :: rest) ∈ w.threads) :
    Snapshot w.calls began w.calls.length
        (if made then old ++ [(hook, w.hookCounters hook)] else old) ∧
      ∃ done, done ++ rest = QDPHook.all ∧
        Listed ((w.resume made (.readCounts began old (hook :: rest))).failures = 0)
          (if made then old ++ [(hook, w.hookCounters hook)] else old) done := by
  obtain ⟨hsnapshot, done, hdone, hlisted⟩ := h.reading began old (hook :: rest) hpc
  have hdone' : (done ++ [hook]) ++ rest = QDPHook.all := by
    rw [List.append_assoc, List.singleton_append, hdone]
  cases made with
  | true =>
    refine ⟨?_, done ++ [hook], hdone', ?_, fun hzero => ?_⟩
    · rw [if_pos rfl, h.counters hook]
      exact hsnapshot.read hook
    · rw [if_pos rfl, List.map_append]
      exact hlisted.sublist.append (List.Sublist.refl _)
    · rw [if_pos rfl, List.map_append, hlisted.eq hzero]
      rfl
  | false =>
    refine ⟨hsnapshot, done ++ [hook], hdone', ?_, fun hzero => absurd hzero (Nat.succ_ne_zero _)⟩
    exact hlisted.sublist.trans (List.sublist_append_left _ _)

/-- Every step keeps the snapshots. -/
theorem step (h : Snapshots w) {a : HookAction} (hstep : w.step a = some t) : Snapshots t := by
  have hcounters := h.counters.step hstep
  obtain ⟨c, rfl, rfl⟩ | ⟨pc, made, rfl, hpc, rfl⟩ := step_cases hstep
  · exact h.call c
  have hreading : ∀ began entries rest,
      .readCounts began entries rest ∈ (w.resume made pc).threads →
        Snapshot w.calls began w.calls.length entries ∧
          ∃ done, done ++ rest = QDPHook.all ∧
            Listed ((w.resume made pc).failures = 0) entries done := by
    intro began entries rest hmem
    rcases mem_resume hmem with hnext | hold
    · obtain ⟨rfl, rfl, rfl⟩ | ⟨old, hook, rfl, rfl⟩ := following_readCounts hnext
      · exact ⟨⟨Nat.le_refl _, (by rintro _ ⟨⟩)⟩, [], rfl, List.Sublist.slnil, fun _ => rfl⟩
      · exact h.reads hpc
    · have hmem' := Multiset.mem_of_mem_erase hold
      obtain ⟨hsnapshot, done, hdone, hlisted⟩ := h.reading began entries rest hmem'
      exact ⟨hsnapshot, done, hdone, hlisted.weaken failures_of_resume⟩
  have hsame : (w.resume made pc).callCounts = w.callCounts → Snapshots (w.resume made pc) := by
    intro heq
    refine ⟨hcounters, fun began entries rest hmem => ?_, fun counts hc => ?_⟩
    · rw [resume_calls]
      exact hreading began entries rest hmem
    · rw [heq] at hc
      obtain ⟨hended, hsnapshot, hlisted⟩ := h.published counts hc
      rw [resume_calls]
      exact ⟨hended, hsnapshot, hlisted.weaken failures_of_resume⟩
  cases pc with
  | readCounts began entries rest =>
    cases rest with
    | nil =>
      refine ⟨hcounters, hreading, fun counts hc => ?_⟩
      obtain rfl := Option.some.inj hc
      obtain ⟨hsnapshot, done, hdone, hlisted⟩ := h.reading began entries [] hpc
      rw [List.append_nil] at hdone
      exact ⟨Nat.le_refl _, hsnapshot, hdone ▸ hlisted⟩
    | cons next rest => cases made <;> exact hsame rfl
  | _ => exact hsame rfl

end Snapshots

/-! ### The size -/

/-- What reads or stores the size. -/
def usesSize : HookPc → Bool
  | .first (.setDisplayMode _) => true
  | .first (.getApertureRange _) => true
  | .body (.setDisplayMode _) => true
  | .body (.getApertureRange _) => true
  | .setWidth _ => true
  | .setHeight _ => true
  | .readWidth => true
  | .readHeight _ => true
  | _ => false

/-- `setDisplayMode` and `getApertureRange` are called one at a time. -/
def OneAtATime (w : DisplayHooks) : HookAction → Prop
  | .call c => usesSize (entry c) = true → ∀ pc ∈ w.threads, usesSize pc = false
  | .resume _ _ => True

instance (w : DisplayHooks) : (a : HookAction) → Decidable (OneAtATime w a)
  | .call _ => inferInstanceAs (Decidable (_ → ∀ pc ∈ w.threads, _))
  | .resume _ _ => .isTrue trivial

/-- **The invariant** of the size. -/
structure SizeRight (w : DisplayHooks) : Prop where
  one : w.threads.countP (fun pc => usesSize pc = true) ≤ 1
  listed : w.lastSet ∈ modes
  height : w.currentHeight = w.lastSet.height
  width : (∀ m, .setHeight m ∉ w.threads) → w.currentWidth = w.lastSet.width
  setting : ∀ m, .setWidth m ∈ w.threads → m ∈ modes
  halfSet : ∀ m, .setHeight m ∈ w.threads → m ∈ modes ∧ w.currentWidth = m.width
  reading : ∀ width, .readHeight width ∈ w.threads → width = w.currentWidth
  apertures : ∀ width height m, (width, height, m) ∈ w.apertures →
    m ∈ modes ∧ width = m.width ∧ height = m.height

/-- At first the size is that of the mode that `qdp_start` assumes. -/
theorem sizeRight_start (rc n : Int32) : SizeRight (start rc n) :=
  ⟨Nat.zero_le _, List.mem_cons_self, rfl, fun _ => rfl, (by rintro _ ⟨⟩), (by rintro _ ⟨⟩),
    (by rintro _ ⟨⟩), (by rintro _ _ _ ⟨⟩)⟩

/-- A call that uses the size is the only one. -/
theorem SizeRight.alone (h : SizeRight w) {pc p : HookPc} (hpc : pc ∈ w.threads)
    (huses : usesSize pc = true) (hp : p ∈ w.threads.erase pc) : usesSize p = false := by
  have hone := h.one
  rw [← Multiset.cons_erase hpc, Multiset.countP_cons, if_pos huses] at hone
  have hzero : (w.threads.erase pc).countP (fun pc => usesSize pc = true) = 0 := by omega
  exact Bool.eq_false_iff.mpr (Multiset.countP_eq_zero.mp hzero p hp)

/-- Only a call that uses the size goes on to use it. -/
theorem following_usesSize (w : DisplayHooks) (made : Bool) (pc : HookPc)
    (h : (w.following made pc).any usesSize = true) : usesSize pc = true := by
  cases pc with
  | first c => cases c <;> first | rfl | cases h
  | body c =>
    cases c with
    | getInformationForDisplayMode mode info =>
      cases info with
      | false => cases h
      | true =>
        change ((findMode mode).map _).any _ = true at h
        rw [Option.any_map] at h
        cases hfind : findMode mode with
        | none =>
          rw [hfind] at h
          cases h
        | some p =>
          rw [hfind] at h
          cases h
    | setupForCurrentConfig org fb array =>
      cases org <;> cases fb <;> cases array <;> cases h
    | setDisplayMode | getApertureRange => rfl
    | _ => cases h
  | readCounts began entries rest => cases rest <;> cases h
  | setWidth | setHeight | readWidth | readHeight => rfl
  | _ => cases h

/-- A call that goes on does not make two users of the size out of one. -/
theorem one_of_resume (h : SizeRight w) {pc : HookPc} (made : Bool) (hpc : pc ∈ w.threads) :
    (w.resume made pc).threads.countP (fun pc => usesSize pc = true) ≤ 1 := by
  have hcount := countP_resume hpc (w.following_usesSize made pc)
  have hone := h.one
  omega

/-- A call that neither sets the size nor reads it goes on. -/
theorem SizeRight.of_same (h : SizeRight w) {pc : HookPc} {made : Bool} (hpc : pc ∈ w.threads)
    (hheight : ∀ m, pc ≠ .setHeight m) (hsame : (w.resume made pc).currentWidth = w.currentWidth ∧
      (w.resume made pc).currentHeight = w.currentHeight ∧
      (w.resume made pc).lastSet = w.lastSet ∧ (w.resume made pc).apertures = w.apertures)
    (hnext : ∀ p, w.following made pc = some p → (∀ m, p ≠ .setHeight m) ∧
      (∀ m, p = .setWidth m → m ∈ modes) ∧
      ∀ width, p = .readHeight width → width = w.currentWidth) :
    SizeRight (w.resume made pc) := by
  obtain ⟨hw, hh, hlast, haps⟩ := hsame
  refine ⟨one_of_resume h made hpc, hlast ▸ h.listed, ?_, fun hnone => ?_, fun m hm => ?_,
    fun m hm => ?_, fun width hm => ?_, ?_⟩
  · rw [hh, hlast, h.height]
  · rw [hw, hlast]
    refine h.width fun m hm => hnone m ?_
    have hother := (Multiset.mem_erase_of_ne (hheight m).symm).mpr hm
    change _ ∈ (w.following made pc).elim _ _
    cases w.following made pc with
    | none => exact hother
    | some next => exact Multiset.mem_cons_of_mem hother
  · rcases mem_resume hm with hfollowing | hold
    · exact (hnext _ hfollowing).2.1 m rfl
    · exact h.setting m (Multiset.mem_of_mem_erase hold)
  · rcases mem_resume hm with hfollowing | hold
    · exact absurd rfl ((hnext _ hfollowing).1 m)
    · rw [hw]
      exact h.halfSet m (Multiset.mem_of_mem_erase hold)
  · rw [hw]
    rcases mem_resume hm with hfollowing | hold
    · exact (hnext _ hfollowing).2.2 width rfl
    · exact h.reading width (Multiset.mem_of_mem_erase hold)
  · rw [haps]
    exact h.apertures

/-- A call begins that may use the size. -/
theorem SizeRight.call (h : SizeRight w) {c : HookCall} (hC : OneAtATime w (.call c)) :
    SizeRight (w.call c) := by
  have hold : ∀ p : HookPc, (∀ c, p ≠ .first c) → (∀ c, p ≠ .body c) →
      p ∈ (w.call c).threads → p ∈ w.threads := by
    intro p hfirst hbody hmem
    rcases mem_call hmem with hentry | hmem
    · rw [entry] at hentry
      split at hentry
      · exact absurd hentry (hfirst c)
      · exact absurd hentry (hbody c)
    · exact hmem
  refine ⟨?_, h.listed, h.height, fun hnone => ?_, fun m hm => ?_, fun m hm => ?_,
    fun width hm => ?_, h.apertures⟩
  · change (entry c ::ₘ w.threads).countP _ ≤ 1
    rw [Multiset.countP_cons]
    split
    · rename_i huses
      have hzero : w.threads.countP (fun pc => usesSize pc = true) = 0 :=
        Multiset.countP_eq_zero.mpr fun pc hpc => Bool.eq_false_iff.mp (hC huses pc hpc)
      omega
    · exact h.one
  · exact h.width fun m hm => hnone m (Multiset.mem_cons_of_mem hm)
  · exact h.setting m (hold _ (by rintro _ ⟨⟩) (by rintro _ ⟨⟩) hm)
  · exact h.halfSet m (hold _ (by rintro _ ⟨⟩) (by rintro _ ⟨⟩) hm)
  · exact h.reading width (hold _ (by rintro _ ⟨⟩) (by rintro _ ⟨⟩) hm)

/-- A call that goes on keeps the size right. -/
theorem SizeRight.resume (h : SizeRight w) {pc : HookPc} (made : Bool) (hpc : pc ∈ w.threads) :
    SizeRight (w.resume made pc) := by
  have hone := one_of_resume h made hpc
  cases pc with
  | first c =>
    refine h.of_same hpc (by rintro _ ⟨⟩) ⟨rfl, rfl, rfl, rfl⟩ fun p hp => ?_
    obtain rfl := Option.some.inj hp
    exact ⟨(by rintro _ ⟨⟩), (by rintro _ ⟨⟩), (by rintro _ ⟨⟩)⟩
  | body c =>
    refine h.of_same hpc (by rintro _ ⟨⟩) ⟨rfl, rfl, rfl, rfl⟩ fun p hp => ?_
    obtain ⟨i, rfl⟩ | ⟨m, hm, rfl⟩ | rfl | rfl | rfl := bodyNext_cases hp
    · exact ⟨(by rintro _ ⟨⟩), (by rintro _ ⟨⟩), (by rintro _ ⟨⟩)⟩
    · exact ⟨(by rintro _ ⟨⟩), (by rintro _ ⟨⟩; exact hm), (by rintro _ ⟨⟩)⟩
    · exact ⟨(by rintro _ ⟨⟩), (by rintro _ ⟨⟩), (by rintro _ ⟨⟩)⟩
    · exact ⟨(by rintro _ ⟨⟩), (by rintro _ ⟨⟩), (by rintro _ ⟨⟩)⟩
    · exact ⟨(by rintro _ ⟨⟩), (by rintro _ ⟨⟩), (by rintro _ ⟨⟩)⟩
  | setWidth m =>
    have hother : ∀ p ∈ (w.resume made (.setWidth m)).threads, p = .setHeight m ∨
        usesSize p = false := by
      intro p hp
      rcases mem_resume hp with hfollowing | hold
      · exact .inl (Option.some.inj hfollowing).symm
      · exact .inr (h.alone hpc rfl hold)
    refine ⟨hone, h.listed, h.height, fun hnone => ?_, fun m' hm => ?_, fun m' hm => ?_,
      fun width hm => ?_, h.apertures⟩
    · exact absurd (Multiset.mem_cons_self _ _) (hnone m)
    · rcases hother _ hm with heq | hno
      · cases heq
      · cases hno
    · rcases hother _ hm with heq | hno
      · cases heq
        exact ⟨h.setting m hpc, rfl⟩
      · cases hno
    · rcases hother _ hm with heq | hno
      · cases heq
      · cases hno
  | setHeight m =>
    obtain ⟨hlisted, hwidth⟩ := h.halfSet m hpc
    have hother : ∀ p ∈ (w.resume made (.setHeight m)).threads, usesSize p = false := by
      intro p hp
      exact h.alone hpc rfl ((mem_resume hp).resolve_left (by rintro ⟨⟩))
    exact ⟨hone, hlisted, rfl, fun _ => hwidth, fun _ hm => absurd (hother _ hm) (by rintro ⟨⟩),
      fun _ hm => absurd (hother _ hm) (by rintro ⟨⟩),
      fun _ hm => absurd (hother _ hm) (by rintro ⟨⟩), h.apertures⟩
  | readWidth =>
    refine h.of_same hpc (by rintro _ ⟨⟩) ⟨rfl, rfl, rfl, rfl⟩ fun p hp => ?_
    obtain rfl := Option.some.inj hp
    exact ⟨(by rintro _ ⟨⟩), (by rintro _ ⟨⟩), (by rintro _ ⟨⟩; rfl)⟩
  | readHeight width =>
    have hother : ∀ p ∈ (w.resume made (.readHeight width)).threads, usesSize p = false := by
      intro p hp
      exact h.alone hpc rfl ((mem_resume hp).resolve_left (by rintro ⟨⟩))
    have hnone : ∀ m, .setHeight m ∉ w.threads := by
      intro m hm
      exact absurd (h.alone hpc rfl ((Multiset.mem_erase_of_ne (by rintro ⟨⟩)).mpr hm))
        (by rintro ⟨⟩)
    refine ⟨hone, h.listed, h.height, fun _ => h.width hnone,
      fun _ hm => absurd (hother _ hm) (by rintro ⟨⟩),
      fun _ hm => absurd (hother _ hm) (by rintro ⟨⟩),
      fun _ hm => absurd (hother _ hm) (by rintro ⟨⟩), fun a b m hmem => ?_⟩
    rcases List.mem_append.mp hmem with hold | hnew
    · exact h.apertures a b m hold
    · obtain ⟨rfl, rfl, rfl⟩ : a = width ∧ b = w.currentHeight ∧ m = w.lastSet := by
        simpa using hnew
      exact ⟨h.listed, (h.reading a hpc).trans (h.width hnone), h.height⟩
  | readCounts began entries rest =>
    cases rest with
    | nil =>
      refine h.of_same hpc (by rintro _ ⟨⟩) ⟨rfl, rfl, rfl, rfl⟩ fun p hp => ?_
      obtain rfl := Option.some.inj hp
      exact ⟨(by rintro _ ⟨⟩), (by rintro _ ⟨⟩), (by rintro _ ⟨⟩)⟩
    | cons hook rest =>
      refine h.of_same hpc (by rintro _ ⟨⟩) (by cases made <;> exact ⟨rfl, rfl, rfl, rfl⟩)
        fun p hp => ?_
      obtain rfl := Option.some.inj hp
      exact ⟨(by rintro _ ⟨⟩), (by rintro _ ⟨⟩), (by rintro _ ⟨⟩)⟩
  | readMask =>
    refine h.of_same hpc (by rintro _ ⟨⟩) ⟨rfl, rfl, rfl, rfl⟩ fun p hp => ?_
    obtain rfl := Option.some.inj hp
    exact ⟨(by rintro _ ⟨⟩), (by rintro _ ⟨⟩), (by rintro _ ⟨⟩)⟩
  | orMask | publishMask =>
    exact h.of_same hpc (by rintro _ ⟨⟩) ⟨rfl, rfl, rfl, rfl⟩ (by rintro _ ⟨⟩)

/-- Where the calls that use the size come one at a time, every step keeps the size right. -/
theorem SizeRight.step (h : SizeRight w) {a : HookAction} (hC : OneAtATime w a)
    (hstep : w.step a = some t) : SizeRight t := by
  obtain ⟨c, rfl, rfl⟩ | ⟨pc, made, rfl, hpc, rfl⟩ := step_cases hstep
  · exact h.call hC
  · exact h.resume made hpc

/-! ### Runs -/

/-- The calls of a run. -/
def callsOf (as : List HookAction) : List HookCall := as.filterMap called?

/-- The calls of a list of actions. -/
theorem mem_callsOf {as : List HookAction} {c : HookCall} : c ∈ callsOf as ↔ .call c ∈ as := by
  rw [callsOf, List.mem_filterMap]
  constructor
  · rintro ⟨a, ha, hc⟩
    cases a with
    | call c' =>
      obtain rfl := Option.some.inj hc
      exact ha
    | resume pc made => cases hc
  · exact fun hmem => ⟨_, hmem, rfl⟩

/-- A run adds its calls to those before. -/
theorem calls_of_run {C : DisplayHooks → HookAction → Prop} {as : List HookAction}
    (h : Run step C w as t) : t.calls = w.calls ++ callsOf as := by
  induction h with
  | nil w => exact (List.append_nil _).symm
  | cons _ hstep _ ih =>
    rw [ih]
    obtain ⟨c, rfl, rfl⟩ | ⟨pc, made, rfl, -, rfl⟩ := step_cases hstep
    · exact List.append_assoc _ _ _
    · rw [resume_calls]
      rfl

/-- From the start on, the calls are those of the run. -/
theorem calls_of_start {C : DisplayHooks → HookAction → Prop} {rc n : Int32}
    {as : List HookAction} (h : Run step C (start rc n) as w) : w.calls = callsOf as :=
  calls_of_run h

/-- A line of `QDPCallCounts` tells the method and the count. -/
theorem countLine_injective {e f : QDPHook × UInt32} (h : countLine e = countLine f) : e = f := by
  have hname : ∀ hook : QDPHook, ∀ c ∈ hook.name.toList, (c != '=') = true := by
    intro hook c hc
    have hplain := (words_plain _ (name_mem_words hook)).2.2
    exact bne_iff_ne.mpr fun heq => hplain (heq ▸ hc)
  have hsplit : ∀ e : QDPHook × UInt32, (countLine e).takeWhile (· != '=') = e.1.name.toList := by
    intro e
    rw [countLine, List.append_assoc, List.takeWhile_append_of_pos (hname e.1)]
    exact List.append_nil _
  have hfst : e.1 = f.1 := by
    refine QDPHook.name_injective (String.toList_injective ?_)
    rw [← hsplit e, ← hsplit f, h]
  have hdigits : Nat.toDigits 10 e.2.toNat = Nat.toDigits 10 f.2.toNat := by
    rw [countLine, countLine, hfst] at h
    exact List.append_cancel_left h
  have hnat : e.2.toNat = f.2.toNat := by
    rw [← Nat.ofDigitChars_ten_toDigits (n := e.2.toNat), hdigits, Nat.ofDigitChars_ten_toDigits]
  exact Prod.ext hfst (UInt32.toNat_inj.mp hnat)

/-- At the start no first call is logged, and none has been made. -/
theorem firstLogged_start (hook : QDPHook) (rc n : Int32) : FirstLogged hook (start rc n) :=
  ⟨0, rfl, rfl, rfl⟩

/-- What a run from `qdp_start` on has kept. -/
structure Logged (w : DisplayHooks) : Prop where
  first : ∀ hook, FirstLogged hook w
  enabled : EnabledLogged w

/-- In every run the lines are those of the calls. -/
theorem Logged.run {rc n : Int32} {as : List HookAction} (h : Run step Always (start rc n) as w) :
    Logged w :=
  h.invariant (fun _ _ _ hI _ hstep => ⟨fun hook => (hI.first hook).step hstep,
    hI.enabled.step hstep⟩) ⟨fun hook => firstLogged_start hook rc n, rfl⟩

/-- A critical method but `enableController` has its first call logged. -/
theorem counted_eq {hook : QDPHook} (hcritical : hook ∈ criticalHooks) (c : HookCall) :
    counted hook c = true ↔ c.hook = hook ∧ hook ≠ .enableController := by
  rw [counted, Bool.and_eq_true, beq_iff_eq]
  refine and_congr_right fun hc => ?_
  subst hc
  cases c with
  | hasDDCConnect | getDDCBlock | getDisplayModeCount | getDisplayModes
  | getInformationForDisplayMode => exact iff_of_true rfl (by rintro ⟨⟩)
  | enableController => exact iff_of_false (by rintro ⟨⟩) fun hne => hne rfl
  | _ => simp [HookCall.hook, criticalHooks] at hcritical

/-- The lines that are found. -/
theorem found_iff (w : DisplayHooks) {hook : QDPHook} (hcritical : hook ∈ criticalHooks) :
    (∃ line ∈ w.log, grepHook hook line) ↔ 0 < w.log.countP (isFirst hook) ∨
      hook = .enableController ∧ 0 < w.log.countP isEnabled := by
  rw [List.countP_pos_iff, List.countP_pos_iff]
  constructor
  · rintro ⟨line, hline, hgrep⟩
    have hother : ∀ hook ∈ criticalHooks, "starting" ≠ hook.name ∧
        "mp_route_on_publish" ≠ hook.name ∧ "orgEnableController" ≠ hook.name ∧
        "orgSetupForCurrentConfig" ≠ hook.name := by decide
    obtain ⟨hstarting, hrouted, henable, hsetup⟩ := hother hook hcritical
    have hword := (grepHook_iff hcritical line).mp hgrep
    cases line with
    | first c => exact .inl ⟨_, hline, beq_iff_eq.mpr (QDPHook.name_injective hword)⟩
    | enabled r vram =>
      exact .inr ⟨(QDPHook.name_injective (h := .enableController) hword).symm, _, hline, rfl⟩
    | starting => exact absurd hword hstarting
    | routed => exact absurd hword hrouted
    | skippingEnableController => exact absurd hword henable
    | skippingSetupForCurrentConfig => exact absurd hword hsetup
  · rintro (⟨line, hline, hfirst⟩ | ⟨rfl, line, hline, henabled⟩)
    · cases line with
      | first c =>
        refine ⟨_, hline, (grepHook_iff hcritical _).mpr ?_⟩
        rw [QDPLine.word, beq_iff_eq.mp hfirst]
      | _ => cases hfirst
    · cases line with
      | enabled r vram => exact ⟨_, hline, (grepHook_iff hcritical _).mpr rfl⟩
      | _ => cases henabled

/-- A line that is found has been written. -/
theorem HookFired.mem {hook : QDPHook} {docker : List (Option QDPLine)}
    (h : HookFired hook docker) (hdocker : docker.reduceOption = w.log) :
    ∃ line ∈ w.log, grepHook hook line := by
  obtain ⟨line, hmem, hgrep⟩ := h
  refine ⟨line, ?_, hgrep⟩
  rw [← hdocker, List.reduceOption_mem_iff]
  exact List.mem_of_mem_drop hmem

/-- A line with fewer than 5000 others behind it is found. -/
theorem hookFired_of_tail {hook : QDPHook} {line : QDPLine} (hgrep : grepHook hook line)
    (before after : List (Option QDPLine)) (htail : after.length < 5000) :
    HookFired hook (before ++ some line :: after) := by
  refine ⟨line, ?_, hgrep⟩
  rw [List.rtake, List.length_append, List.length_cons, List.drop_append]
  refine List.mem_append_right _ ?_
  rw [show before.length + (after.length + 1) - 5000 - before.length = 0 by omega, List.drop_zero]
  exact List.mem_cons_self

end DisplayHooks

open DisplayHooks

/-- **The lines**: there is a line for a critical method only if the method has been called
(`enableController` with its original known), and there is one if no call is under way. -/
theorem logged_iff_called {rc n : Int32} {as : List HookAction} {w : DisplayHooks}
    (h : Run DisplayHooks.step Always (DisplayHooks.start rc n) as w) {hook : QDPHook}
    (hcritical : hook ∈ criticalHooks) :
    ((∃ line ∈ w.log, grepHook hook line) →
      ∃ c, .call c ∈ as ∧ c.hook = hook ∧ c ≠ .enableController none) ∧
    (w.threads = 0 → (∃ c, .call c ∈ as ∧ c.hook = hook ∧ c ≠ .enableController none) →
      ∃ line ∈ w.log, grepHook hook line) := by
  have hlogged := Logged.run h
  obtain ⟨d, hledger, -, hlines⟩ := hlogged.first hook
  have henabled : w.calls.countP enables =
      w.threads.countP (fun pc => enabling pc = true) + w.log.countP isEnabled := hlogged.enabled
  have hcounted : w.calls.countP (counted hook) =
      w.threads.countP (fun pc => waits hook pc = true) + d := hledger
  have henables : ∀ c, enables c = true ↔
      c.hook = .enableController ∧ c ≠ .enableController none := by
    intro c
    cases c with
    | enableController org =>
      cases org with
      | none => exact iff_of_false (by rintro ⟨⟩) fun hne => hne.2 rfl
      | some p => exact iff_of_true rfl ⟨rfl, by rintro ⟨⟩⟩
    | _ => exact iff_of_false (by rintro ⟨⟩) (by rintro ⟨⟨⟩, _⟩)
  rw [found_iff w hcritical, hlines]
  constructor
  · rintro (hpos | ⟨rfl, hpos⟩)
    · have hpos' : 0 < w.calls.countP (counted hook) := by omega
      obtain ⟨c, hc, hhook⟩ := List.countP_pos_iff.mp hpos'
      obtain ⟨hsame, hne⟩ := (counted_eq hcritical c).mp hhook
      rw [calls_of_start h, mem_callsOf] at hc
      exact ⟨c, hc, hsame, fun heq => hne (hsame ▸ heq ▸ rfl)⟩
    · have hpos' : 0 < w.calls.countP enables := by omega
      obtain ⟨c, hc, hhook⟩ := List.countP_pos_iff.mp hpos'
      rw [calls_of_start h, mem_callsOf] at hc
      exact ⟨c, hc, (henables c).mp hhook⟩
  · rintro hquiet ⟨c, hc, hsame, hne⟩
    rw [hquiet, Multiset.countP_zero, Nat.zero_add] at hcounted henabled
    rw [← mem_callsOf, ← calls_of_start h] at hc
    by_cases henable : hook = .enableController
    · refine .inr ⟨henable, ?_⟩
      rw [← henabled]
      exact List.countP_pos_iff.mpr ⟨c, hc, (henables c).mpr ⟨hsame.trans henable, hne⟩⟩
    · have hpos := List.countP_pos_iff.mpr ⟨c, hc, (counted_eq hcritical c).mpr ⟨hsame, henable⟩⟩
      left
      omega

/-- `getDDCBlock` is called once. -/
def oneBlockRead : List HookAction :=
  [.call (.getDDCBlock 1 0), .resume (.first (.getDDCBlock 1 0)) true,
    .resume (.body (.getDDCBlock 1 0)) true]

/-- **The counts**: a line of `QDPCallCounts` has the number of calls, modulo 2³², that had been
made at some time while the counters were read; and if every string could be made there is a
line for each method. -/
theorem published_counts {rc n : Int32} {as : List HookAction} {w : DisplayHooks}
    (h : Run DisplayHooks.step Always (DisplayHooks.start rc n) as w) {c : CallCounts}
    (hc : w.callCounts = some c) :
    c.ended ≤ (callsOf as).length ∧
      (∀ hook v, countLine (hook, v) ∈ c.lines → ∃ k, c.began ≤ k ∧ k ≤ c.ended ∧
        v = UInt32.ofNat (((callsOf as).take k).countP fun c => c.hook == hook)) ∧
      (c.entries.map Prod.fst).Sublist QDPHook.all ∧
      (w.failures = 0 → c.entries.map Prod.fst = QDPHook.all) := by
  have hinv : Snapshots w := h.invariant (fun _ _ _ hI _ hstep => hI.step hstep)
    ⟨fun _ => rfl, (by rintro _ _ _ ⟨⟩), (by rintro _ ⟨⟩)⟩
  obtain ⟨hended, hsnapshot, hlisted⟩ := hinv.published c hc
  rw [← calls_of_start h]
  refine ⟨hended, fun hook v hline => ?_, hlisted.sublist, hlisted.eq⟩
  obtain ⟨e, he, hsame⟩ := List.mem_map.mp hline
  obtain rfl := countLine_injective hsame
  exact hsnapshot.exact _ he

/-- The entries of the first `k` methods after a single call, of `setupForCurrentConfig`. -/
def firstEntries (k : ℕ) : List (QDPHook × UInt32) :=
  (QDPHook.all.take k).map fun hook => (hook, if hook = .setupForCurrentConfig then 1 else 0)

/-- `setupForCurrentConfig` is called, and reads and publishes the counters. -/
def oneSetup : List HookAction :=
  [.call (.setupForCurrentConfig true true true),
    .resume (.body (.setupForCurrentConfig true true true)) true] ++
  (List.range 25).map fun k => .resume (.readCounts 1 (firstEntries k) (QDPHook.all.drop k)) true

/-- There is a line for each method. -/
theorem published_counts_setup : ∃ w c,
    Run DisplayHooks.step Always (DisplayHooks.start 0 48) oneSetup w ∧ w.callCounts = some c ∧
      c.ended ≤ 1 ∧ c.entries.map Prod.fst = QDPHook.all := by
  have hrun : (oneSetup.foldlM DisplayHooks.step (DisplayHooks.start 0 48)).map
      (fun w => (w.callCounts.isSome, w.failures)) = some (true, 0) := by decide +kernel
  obtain ⟨w, hw, hend⟩ := Option.map_eq_some_iff.mp hrun
  obtain ⟨hsome, hfailures⟩ := Prod.mk.inj hend
  obtain ⟨c, hc⟩ := Option.isSome_iff_exists.mp hsome
  have hcounts := published_counts (run_of_foldlM hw) hc
  exact ⟨w, c, run_of_foldlM hw, hc, hcounts.1, hcounts.2.2.2 hfailures⟩

/-- **The mask**: a published bit is that of a mode that has been asked for, and with no call
under way the mask has the bits of all of these; 255 is published only once there has been a
call for every mode. -/
theorem modes_queried {rc n : Int32} {as : List HookAction} {w : DisplayHooks}
    (h : Run DisplayHooks.step Always (DisplayHooks.start rc n) as w) :
    (∀ mask, w.queriedMask = some mask → ∀ i, mask.toNat.testBit i = true →
      i < 8 ∧ ∃ c, .call c ∈ as ∧ c.asksFor i = true) ∧
    (w.threads = 0 → ∀ i, w.modesQueriedMask.toNat.testBit i = true ↔
      ∃ c, .call c ∈ as ∧ c.asksFor i = true) ∧
    (w.queriedMask = some 255 → ∀ m ∈ modes,
      .call (.getInformationForDisplayMode m.id.toInt32 true) ∈ as) := by
  have hbits : ∀ i, BitAsked i w := h.invariant
    (fun _ _ _ hI _ hstep => BitAsked.step hI hstep) fun i => ⟨0, rfl, by
      change (0 : ℕ).testBit i = true ↔ 0 < 0
      rw [Nat.zero_testBit]
      exact iff_of_false Bool.false_ne_true (Nat.lt_irrefl 0)⟩
  have hmasks : MasksRead w := h.invariant (fun _ _ _ hI _ hstep => hI.step hstep)
    ⟨(by rintro _ ⟨⟩), (by rintro _ ⟨⟩)⟩
  have hasked : ∀ i, w.modesQueriedMask.toNat.testBit i = true →
      ∃ c, .call c ∈ as ∧ c.asksFor i = true := by
    intro i hi
    obtain ⟨d, hledger, hbit⟩ := hbits i
    have hcount : w.calls.countP (HookCall.asksFor i) =
        w.threads.countP (fun pc => asking i pc = true) + d := hledger
    have hpos := hbit.mp hi
    have hsome : 0 < w.calls.countP (HookCall.asksFor i) := by omega
    obtain ⟨c, hc, hasks⟩ := List.countP_pos_iff.mp hsome
    rw [calls_of_start h, mem_callsOf] at hc
    exact ⟨c, hc, hasks⟩
  have hpublished : ∀ mask, w.queriedMask = some mask → ∀ i, mask.toNat.testBit i = true →
      i < 8 ∧ ∃ c, .call c ∈ as ∧ c.asksFor i = true := by
    intro mask hmask i hi
    obtain ⟨c, hc, hasks⟩ := hasked i (hmasks.published mask hmask i hi)
    exact ⟨lt_of_asksFor hasks, c, hc, hasks⟩
  refine ⟨hpublished, fun hquiet i => ⟨hasked i, ?_⟩, fun hall m hm => ?_⟩
  · rintro ⟨c, hc, hasks⟩
    obtain ⟨d, hledger, hbit⟩ := hbits i
    have hcount : w.calls.countP (HookCall.asksFor i) =
        w.threads.countP (fun pc => asking i pc = true) + d := hledger
    rw [hquiet, Multiset.countP_zero, Nat.zero_add] at hcount
    rw [← mem_callsOf, ← calls_of_start h] at hc
    exact hbit.mpr (hcount ▸ List.countP_pos_iff.mpr ⟨c, hc, hasks⟩)
  · obtain ⟨i, hi⟩ := List.mem_iff_getElem?.mp hm
    have hlt : i < 8 := (List.getElem?_eq_some_iff.mp hi).1
    have hones : ∀ i < 8, (255 : UInt64).toNat.testBit i = true := by decide
    obtain ⟨-, c, hc, hasks⟩ := hpublished 255 hall i (hones i hlt)
    obtain ⟨mode, m', rfl, hdescribed⟩ := asksFor_iff.mp hasks
    obtain rfl : m = m' := Option.some.inj (hi.symm.trans hdescribed.get)
    rwa [hdescribed.id]

/-- The third mode is asked for. -/
def thirdModeAsked : List HookAction :=
  [.call (.getInformationForDisplayMode 3 true),
    .resume (.first (.getInformationForDisplayMode 3 true)) true,
    .resume (.body (.getInformationForDisplayMode 3 true)) true, .resume (.orMask 2) true]

/-- It is the one that the mask has. -/
theorem modes_queried_third : ∃ w,
    Run DisplayHooks.step Always (DisplayHooks.start 0 48) thirdModeAsked w ∧
      w.modesQueriedMask.toNat.testBit 2 = true := by
  have hrun : (thirdModeAsked.foldlM DisplayHooks.step (DisplayHooks.start 0 48)).map
      (fun w => w.threads) = some 0 := by decide
  obtain ⟨w, hw, hquiet⟩ := Option.map_eq_some_iff.mp hrun
  refine ⟨w, run_of_foldlM hw, ((modes_queried (run_of_foldlM hw)).2.1 hquiet 2).mpr ?_⟩
  exact ⟨.getInformationForDisplayMode 3 true, List.mem_cons_self, by decide⟩

/-- **The aperture**, as long as `setDisplayMode` and `getApertureRange` are called one at a time:
it is that of the mode that was set last, with the rows that `getPixelInformation` tells; of the
mode that `getCurrentDisplayMode` tells it is only if that mode was set last. -/
theorem aperture_of_mode {rc n : Int32} {as : List HookAction} {w : DisplayHooks}
    (h : Run DisplayHooks.step OneAtATime (DisplayHooks.start rc n) as w) {width height : UInt32}
    {m : ModeInfo} (hm : (width, height, m) ∈ w.apertures) :
    m ∈ modes ∧
      (fbSize (width, height)).toNat =
        m.pixelInformation.bytesPerRow.toNat * m.pixelInformation.activeHeight.toNat ∧
      ∀ old mode i current, (patchedGetCurrentDisplayMode (some old) none).1 = some mode →
        Described mode i current →
        (fbSize (width, height) = fbSize (current.width, current.height) ↔ m = current) := by
  have hinv : SizeRight w := h.invariant (fun _ _ _ hI hC hstep => hI.step hC hstep)
    (sizeRight_start rc n)
  obtain ⟨hlisted, rfl, rfl⟩ := hinv.apertures width height m hm
  refine ⟨hlisted, fbSize_eq_rows m hlisted, fun _ mode i current _ hcurrent => ?_⟩
  exact ⟨fbSize_injective m hlisted current hcurrent.mem, fun heq => by rw [heq]⟩

/-- The second mode is set, and the aperture asked for. -/
def secondModeSet : List HookAction :=
  [.call (.setDisplayMode 2), .resume (.body (.setDisplayMode 2)) true,
    .resume (.setWidth ⟨2, 2560, 1440, sixtyHertz⟩) true,
    .resume (.setHeight ⟨2, 2560, 1440, sixtyHertz⟩) true, .call (.getApertureRange true),
    .resume (.body (.getApertureRange true)) true, .resume .readWidth true,
    .resume (.readHeight 2560) true]

/-- The aperture is not that of the mode that `getCurrentDisplayMode` tells. -/
theorem aperture_of_mode_second : ∃ w,
    Run DisplayHooks.step OneAtATime (DisplayHooks.start 0 48) secondModeSet w ∧
      ∃ width height, (width, height, ⟨2, 2560, 1440, sixtyHertz⟩) ∈ w.apertures ∧
        fbSize (width, height) ≠ fbSize (1920, 1080) := by
  have hrun : (secondModeSet.foldlM (guarded DisplayHooks.step OneAtATime)
      (DisplayHooks.start 0 48)).map (fun w => w.apertures) =
        some [(2560, 1440, ⟨2, 2560, 1440, sixtyHertz⟩)] := by decide
  obtain ⟨w, hw, hend⟩ := Option.map_eq_some_iff.mp hrun
  have hmem : (2560, 1440, ⟨2, 2560, 1440, sixtyHertz⟩) ∈ w.apertures := by
    rw [hend]
    exact List.mem_cons_self
  refine ⟨w, run_of_guarded hw, _, _, hmem, fun heq => ?_⟩
  have hsame := ((aperture_of_mode (run_of_guarded hw) hmem).2.2 0 1 0
    ⟨1, 1920, 1080, sixtyHertz⟩ rfl ⟨rfl, rfl⟩).mp heq
  exact absurd hsame (by decide)

end DockerMacos
