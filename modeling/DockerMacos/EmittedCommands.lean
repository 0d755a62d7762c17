import DockerMacos.OpenReservations

/-!
# Success Without a Command

`createSurface`, `surfaceDMA2D`, `surfaceCopy` and `surfacePresentAutoSync` of the accelerator
(`AC/VMsvga2Accel.cpp`) begin a command whose size they compute from a region. When
`FIFOReserve` refuses it, they leave through their `exit` label, behind which they return
success.

## Two ways through a method

Such a method either reserves room, writes the whole command and commits it, or is refused and
does nothing (`Begins`). `Writing` follows the words of an open reservation, so that the
committed command is known word by word: it is `CommandWrapper.command`, built from the
arguments of the call. A fence is stored behind a committed command only.

## Sizes

The size of the command depends on the number of the rectangles of the region. Whether it is
accepted is therefore decided by the arguments (`Fits`), before the call looks at the FIFO.

## Main results

* `complete_run`: the two ways through such a method.
* `CommandWrapper.outcome`: what a call has done when it returns.
* `success_means_emitted`: success means a committed command exactly when the command fits.
-/

namespace DockerMacos

/-! ### The words of a command -/

/-- The first words of the reservation are these. -/
def Written (c : CommandFifo) (l : List FifoWord) : Prop :=
  ∀ k v, l[k]? = some v → c.written k = some v

/-- `ws` written over `l` from word `i` on. -/
def overlay (l : List FifoWord) (i : ℕ) (ws : List FifoWord) : List FifoWord :=
  l.take i ++ ws ++ l.drop (i + ws.length)

/-- The words stored read back, all others are as they were. -/
theorem storeWords_written (c : CommandFifo) (i : ℕ) (ws : List FifoWord) (k : ℕ) :
    (c.storeWords i ws).written k =
      if i ≤ k ∧ k < i + ws.length then ws[k - i]? else c.written k := by
  induction ws generalizing c i with
  | nil => rw [CommandFifo.storeWords, if_neg (by simp)]
  | cons v ws ih =>
      rw [CommandFifo.storeWords, ih]
      by_cases hk : i + 1 ≤ k ∧ k < i + 1 + ws.length
      · rw [if_pos hk, if_pos (by rw [List.length_cons]; omega),
          show k - i = (k - (i + 1)) + 1 by omega, List.getElem?_cons_succ]
      · rw [if_neg hk]
        by_cases hik : k = i
        · subst hik
          simp [CommandFifo.storeWord]
        · rw [if_neg (by rw [List.length_cons]; omega)]
          simp [CommandFifo.storeWord, hik]

/-- Storing words writes over what was written. -/
theorem Written.store {c : CommandFifo} {l : List FifoWord} (h : Written c l) {i : ℕ}
    (hi : i ≤ l.length) (ws : List FifoWord) : Written (c.storeWords i ws) (overlay l i ws) := by
  intro k v hk
  rw [storeWords_written]
  have htake : (l.take i).length = i := by rw [List.length_take]; omega
  rw [overlay, List.append_assoc] at hk
  by_cases hlow : k < i
  · rw [if_neg (by omega)]
    rw [List.getElem?_append_left (by omega), List.getElem?_take_of_lt hlow] at hk
    exact h k v hk
  · rw [List.getElem?_append_right (by omega), htake] at hk
    by_cases hmid : k - i < ws.length
    · rw [if_pos (by omega)]
      rwa [List.getElem?_append_left hmid] at hk
    · rw [if_neg (by omega)]
      rw [List.getElem?_append_right (by omega), List.getElem?_drop] at hk
      rw [show i + ws.length + (k - i - ws.length) = k by omega] at hk
      exact h k v hk

/-- The contents of a reservation that is written in full. -/
theorem Written.contents {c : CommandFifo} {l : List FifoWord} (h : Written c l) {bytes : ℕ}
    (hbytes : bytes = 4 * l.length) : contents c.written bytes = l := by
  subst hbytes
  rw [DockerMacos.contents, Nat.mul_div_cancel_left _ (by decide)]
  refine List.ext_getElem? fun k => ?_
  by_cases hk : k < l.length
  · rw [List.getElem?_map, List.getElem?_range hk, List.getElem?_eq_getElem hk, Option.map_some,
      h k l[k] (List.getElem?_eq_getElem hk), Option.getD_some]
  · rw [List.getElem?_eq_none (by simpa using hk), List.getElem?_eq_none (by simpa using hk)]

/-! ### The two ways through a method -/

/-- A reservation of `bytes` bytes has been open since `c`, and its first words are `l`. -/
structure Writing (c : CommandFifo) (bytes : ℕ) (l : List FifoWord) (u : CommandFifo) : Prop where
  log : u.log = c.log
  reserved : u.dev.reservedSize = bytes
  written : Written u l

/-- Storing words keeps the reservation open. -/
theorem Writing.store {c u : CommandFifo} {bytes : ℕ} {l : List FifoWord}
    (h : Writing c bytes l u) {i : ℕ} (hi : i ≤ l.length) (ws : List FifoWord) :
    Writing c bytes (overlay l i ws) (u.storeWords i ws) := by
  obtain ⟨fifo, bounceBuffer, written, heq⟩ := storeWords_eq u i ws
  refine ⟨?_, ?_, h.written.store hi ws⟩
  · rw [heq]
    exact h.log
  · rw [heq]
    exact h.reserved

/-- A program that is refused and does nothing (the ghost count apart), or that opens a
reservation of `bytes` bytes and writes `l` there. -/
structure Begins (c : CommandFifo) (bytes : ℕ) (l : List FifoWord) (m : FifoM Bool) : Prop where
  refused : c.dev.fifoReserveRefused bytes = true →
    ∃ blocked, m.run c = some (false, { c with blocked := blocked })
  accepted : c.dev.fifoReserveRefused bytes = false →
    ∀ ok u, m.run c = some (ok, u) → ok = true ∧ Writing c bytes l u

/-- `FIFOReserve` opens a reservation with no words, or is refused. -/
theorem fifoReserve_begins (c : CommandFifo) (bytes : ℕ) :
    Begins c bytes [] (fifoReserve bytes) := by
  rcases fifoReserve_cases c bytes with ⟨hrefused, heq⟩ | ⟨haccepted, heq⟩
  · exact ⟨fun _ => ⟨_, heq⟩, fun h => absurd (hrefused.symm.trans h) (by decide)⟩
  · refine ⟨fun h => absurd (haccepted.symm.trans h) (by decide), fun _ ok u hrun => ?_⟩
    rw [heq, Option.map_eq_some_iff] at hrun
    obtain ⟨⟨d, looks⟩, hloop, hrun⟩ := hrun
    cases hrun
    obtain ⟨stop, bounce, reserved, rfl, -⟩ := reserveLoop_eq_some hloop
    exact ⟨rfl, rfl, rfl, fun k v hk => by cases hk⟩

/-- The words behind those that are written. -/
theorem Begins.header {c : CommandFifo} {bytes : ℕ} {l : List FifoWord} {m : FifoM Bool}
    (hm : Begins c bytes l m) (ws : List FifoWord) : Begins c bytes (l ++ ws) (do
      if ← m then
        store l.length ws
        return true
      else return false) where
  refused h := by
    obtain ⟨blocked, heq⟩ := hm.refused h
    exact ⟨blocked, by rw [StateT.run_bind, heq]; rfl⟩
  accepted h ok v hrun := by
    rw [StateT.run_bind, Option.bind_eq_bind, Option.bind_eq_some_iff] at hrun
    obtain ⟨⟨started, u⟩, hu, hrun⟩ := hrun
    obtain ⟨rfl, hwriting⟩ := hm.accepted h started u hu
    cases hrun
    have hstore := hwriting.store le_rfl ws
    rw [overlay, List.take_length, List.drop_eq_nil_of_le (Nat.le_add_right _ _),
      List.append_nil] at hstore
    exact ⟨rfl, hstore⟩

/-- `FIFOCommitAll` logs the command. -/
theorem fifoCommitAll_writing {c u : CommandFifo} {l : List FifoWord} (hpos : 0 < l.length)
    (hu : Writing c (4 * l.length) l u) : ∃ e v, fifoCommitAll.run u = some ((), v) ∧
      v.log = c.log ++ [e] ∧ e.words = l := by
  have haccept : (u.dev.fifoCommitRefused u.dev.reservedSize || decide (u.dev.reservedSize = 0)) =
      false := by
    have hne : u.dev.reservedSize ≠ 0 := by rw [hu.reserved]; omega
    have haligned : u.dev.reservedSize % 4 = 0 := by rw [hu.reserved]; omega
    simp [SVGADevice.fifoCommitRefused, hne, haligned]
  refine ⟨⟨u.dev.fifoNextCmd, (u.dev.fifoCommit u.dev.reservedSize).fifoNextCmd,
    contents u.written u.dev.reservedSize⟩, _, rfl, ?_, hu.written.contents hu.reserved⟩
  simp only [haccept, Bool.false_eq_true, if_false, hu.log]

/-- The header and the fixed part of a command. -/
def commandHead (cmd : ℕ) (args : List FifoWord) (bytes : ℕ) : List FifoWord :=
  [word cmd, word (4 * args.length + bytes)] ++ args

/-- A 3D command begins with its number and its size, and then has its fixed part. -/
theorem begin3D_begins (c : CommandFifo) (cmd : ℕ) (args : List FifoWord) (bytes : ℕ) :
    Begins c (SVGACommands.bytes3D args bytes) (commandHead cmd args bytes)
      (SVGACommands.begin3D cmd args bytes) :=
  (Begins.header (fifoReserve_begins c _) [word cmd, word (4 * args.length + bytes)]).header args

/-- A method that begins a command, fills it and commits it takes one of two ways: the
reservation is refused and nothing happens, or the command is in the log. -/
theorem complete_run {α : Type} {cmd : ℕ} {args words : List FifoWord} {bytes : ℕ}
    {fill : FifoM Unit} {next other : FifoM α} {c d : CommandFifo} {a : α}
    (hwords : SVGACommands.bytes3D args bytes = 4 * words.length)
    (hfill : ∀ u, Writing c (4 * words.length) (commandHead cmd args bytes) u →
      ∃ v, fill.run u = some ((), v) ∧ Writing c (4 * words.length) words v)
    (hrun : (do
      if ← SVGACommands.begin3D cmd args bytes then
        fill
        fifoCommitAll
        next
      else other : FifoM α).run c = some (a, d)) :
    (c.dev.fifoReserveRefused (4 * words.length) = true ∧
      ∃ blocked, other.run { c with blocked := blocked } = some (a, d)) ∨
    c.dev.fifoReserveRefused (4 * words.length) = false ∧
      ∃ e v, v.log = c.log ++ [e] ∧ e.words = words ∧ next.run v = some (a, d) := by
  have hpos := SVGACommands.bytes3D_pos args bytes
  have hbegin := begin3D_begins c cmd args bytes
  rw [hwords] at hbegin hpos
  rw [StateT.run_bind] at hrun
  cases hrefused : c.dev.fifoReserveRefused (4 * words.length) with
  | true =>
      obtain ⟨blocked, heq⟩ := hbegin.refused hrefused
      rw [heq] at hrun
      exact .inl ⟨rfl, blocked, hrun⟩
  | false =>
      rw [Option.bind_eq_bind, Option.bind_eq_some_iff] at hrun
      obtain ⟨⟨started, u⟩, hu, hrun⟩ := hrun
      obtain ⟨rfl, hwriting⟩ := hbegin.accepted hrefused started u hu
      obtain ⟨v, hv, hfilled⟩ := hfill u hwriting
      obtain ⟨e, w, hw, hlog, hwordsw⟩ := fifoCommitAll_writing (by omega) hfilled
      refine .inr ⟨rfl, e, w, hlog, hwordsw, ?_⟩
      simp only [if_true, StateT.run_bind, hv, Option.bind_eq_bind, Option.bind_some, hw] at hrun
      exact hrun

/-! ### The methods -/

/-- A call of one of the four methods. -/
inductive CommandWrapper
  | createSurface (sid surfaceFlags surfaceFormat width height : FifoWord)
  | surfaceDMA2D (sid transfer : FifoWord) (region : Option IOAccelDeviceRegion)
      (extra : Option ExtraInfo) (fence : Bool)
  | surfaceCopy (srcSid dstSid : FifoWord) (region : Option IOAccelDeviceRegion)
      (extra : Option ExtraInfo)
  | surfacePresentAutoSync (sid : FifoWord) (region : Option IOAccelDeviceRegion)
      (extra : Option ExtraInfo)

namespace CommandWrapper

/-- The return value, and the fence that the call has stored. -/
def run (cfg : AccelConfig) : CommandWrapper → FifoM (IOReturn × Option ℕ)
  | createSurface sid surfaceFlags surfaceFormat width height => do
      let r ← AccelCommands.createSurface cfg sid surfaceFlags surfaceFormat width height
      return (r, none)
  | surfaceDMA2D sid transfer region extra fence =>
      AccelCommands.surfaceDMA2D cfg sid transfer region extra fence
  | surfaceCopy srcSid dstSid region extra => do
      let r ← AccelCommands.surfaceCopy cfg srcSid dstSid region extra
      return (r, none)
  | surfacePresentAutoSync sid region extra =>
      AccelCommands.surfacePresentAutoSync cfg sid region extra

/-- The call is not turned away at once. -/
def accepted (cfg : AccelConfig) : CommandWrapper → Bool
  | createSurface .. => cfg.haveSVGA3D
  | surfaceDMA2D _ _ _ extra _ => cfg.haveSVGA3D && extra.isSome
  | surfaceCopy _ _ _ extra => cfg.haveSVGA3D && extra.isSome
  | surfacePresentAutoSync _ _ extra => cfg.haveSVGA3D && extra.isSome

/-- The device command that the call builds. -/
def command : CommandWrapper → List FifoWord
  | createSurface sid surfaceFlags surfaceFormat width height =>
      [word 1040, word 48, sid, surfaceFlags, surfaceFormat, 1, 0, 0, 0, 0, 0, width, height, 1]
  | surfaceDMA2D sid transfer region extra _ =>
      match extra with
      | none => []
      | some extra =>
          [word 1044, word (28 + 36 * (regionRects region).length), extra.memGmrId,
            word extra.memOffsetInGmr, word extra.memPitch, sid, 0, 0, transfer] ++
            (regionRects region).flatMap (copyBox extra)
  | surfaceCopy srcSid dstSid region extra =>
      match extra with
      | none => []
      | some extra =>
          [word 1042, word (24 + 36 * (regionRects region).length), srcSid, 0, 0, dstSid, 0, 0] ++
            (regionRects region).flatMap (copyBox extra)
  | surfacePresentAutoSync sid region extra =>
      match extra with
      | none => []
      | some extra =>
          [word 1058, word (4 + 24 * (regionRects region).length), sid] ++
            (regionRects region).flatMap (copyRect extra)

/-- The size of the device command. -/
def bytes (w : CommandWrapper) : ℕ := 4 * w.command.length

/-- The device command has been committed between two states. -/
def Emitted (w : CommandWrapper) (c d : CommandFifo) : Prop :=
  ∃ e rest, d.log = c.log ++ e :: rest ∧ e.words = w.command

/-- **Success means emitted.** -/
structure SuccessMeansEmitted (w : CommandWrapper) (c : CommandFifo) (r : IOReturn)
    (stored : Option ℕ) (d : CommandFifo) : Prop where
  success : r = .success → w.Emitted c d
  /-- A fence is stored for a committed command only. -/
  fence : stored.isSome = true → w.Emitted c d
  refused : c.dev.fifoReserveRefused w.bytes = true → r ≠ .success

/-- The device command is one that `FIFOReserve` accepts. -/
def Fits (w : CommandWrapper) (c : CommandFifo) : Prop :=
  w.bytes ≤ bounceBufferSize ∧ w.bytes ≤ sub32 c.dev.fifoMax c.dev.fifoMin ∧
    c.dev.reservedSize = 0

/-- A box to be copied has nine words. -/
theorem length_flatMap_copyBox (extra : ExtraInfo) (rects : List IOAccelBounds) :
    (rects.flatMap (copyBox extra)).length = 9 * rects.length := by
  induction rects with
  | nil => rfl
  | cons r rects ih =>
      rw [List.flatMap_cons, List.length_append, ih, List.length_cons, Nat.mul_succ, Nat.add_comm]
      rfl

/-- A rectangle to be copied has six. -/
theorem length_flatMap_copyRect (extra : ExtraInfo) (rects : List IOAccelBounds) :
    (rects.flatMap (copyRect extra)).length = 6 * rects.length := by
  induction rects with
  | nil => rfl
  | cons r rects ih =>
      rw [List.flatMap_cons, List.length_append, ih, List.length_cons, Nat.mul_succ, Nat.add_comm]
      rfl

/-- What a call has done when it returns. -/
inductive Outcome (cfg : AccelConfig) (w : CommandWrapper) (c : CommandFifo) :
    IOReturn × Option ℕ → CommandFifo → Prop
  /-- It has been turned away. -/
  | rejected {r : IOReturn} {d : CommandFifo} : w.accepted cfg = false → r ≠ .success →
      Outcome cfg w c (r, none) d
  /-- The reservation was refused, and the call returns success. -/
  | refused {d : CommandFifo} : w.accepted cfg = true →
      c.dev.fifoReserveRefused w.bytes = true → d.log = c.log → Outcome cfg w c (.success, none) d
  /-- The command is committed. -/
  | emitted {stored : Option ℕ} {d : CommandFifo} : w.accepted cfg = true →
      c.dev.fifoReserveRefused w.bytes = false → w.Emitted c d →
      Outcome cfg w c (.success, stored) d

/-- Two ways through a method, two outcomes. `out` makes the result of a method the return
value and the fence. -/
theorem outcome_of_complete {α : Type} {cfg : AccelConfig} {w : CommandWrapper} {c d : CommandFifo}
    (out : α → IOReturn × Option ℕ) {a a₀ : α} {cmd bytes : ℕ} {args : List FifoWord}
    {fill : FifoM Unit} {next : FifoM α} (haccepted : w.accepted cfg = true)
    (hbytes : SVGACommands.bytes3D args bytes = w.bytes)
    (hfill : ∀ u, Writing c w.bytes (commandHead cmd args bytes) u →
      ∃ v, fill.run u = some ((), v) ∧ Writing c w.bytes w.command v)
    (hnext : ∀ v a d, next.run v = some (a, d) →
      (out a).1 = .success ∧ ∃ rest, d.log = v.log ++ rest)
    (hout : out a₀ = (.success, none))
    (hrun : (do
      if ← SVGACommands.begin3D cmd args bytes then
        fill
        fifoCommitAll
        next
      else return a₀ : FifoM α).run c = some (a, d)) : w.Outcome cfg c (out a) d := by
  rcases complete_run hbytes hfill hrun with
    ⟨hrefused, blocked, hother⟩ | ⟨hfits, e, v, hlog, hwords, hrest⟩
  · cases hother
    rw [hout]
    exact .refused haccepted hrefused rfl
  · obtain ⟨hsuccess, rest, hd⟩ := hnext v a d hrest
    have hemitted : w.Emitted c d :=
      ⟨e, rest, by rw [hd, hlog, List.append_assoc]; rfl, hwords⟩
    rw [← Prod.mk.eta (p := out a), hsuccess]
    exact .emitted haccepted hfits hemitted

/-- Words stored behind what is written, over zeros. -/
theorem fill_tail {c u : CommandFifo} {bytes i k : ℕ} {l ws : List FifoWord} (hi : l.length = i)
    (hk : k ≤ ws.length) (hu : Writing c bytes (l ++ List.replicate k 0) u) :
    ∃ v, (store i ws).run u = some ((), v) ∧ Writing c bytes (l ++ ws) v := by
  subst hi
  have hstore := hu.store (i := l.length) (by rw [List.length_append]; omega) ws
  rw [overlay, List.take_left, List.drop_eq_nil_of_le, List.append_nil] at hstore
  · exact ⟨_, rfl, hstore⟩
  · rw [List.length_append, List.length_replicate]
    omega

/-- A reservation logs nothing. -/
theorem fifoReserve_log {v u : CommandFifo} {bytes : ℕ} {ok : Bool}
    (hrun : (fifoReserve bytes).run v = some (ok, u)) : u.log = v.log := by
  rcases fifoReserve_cases v bytes with ⟨-, heq⟩ | ⟨-, heq⟩
  · cases heq.symm.trans hrun
    rfl
  · rw [heq, Option.map_eq_some_iff] at hrun
    obtain ⟨p, -, hrun⟩ := hrun
    cases hrun
    rfl

/-- A commit logs what it commits, after what there was. -/
theorem fifoCommitAll_log (u : CommandFifo) :
    ∃ v rest, fifoCommitAll.run u = some ((), v) ∧ v.log = u.log ++ rest := by
  by_cases hskip : (u.dev.fifoCommitRefused u.dev.reservedSize ||
      decide (u.dev.reservedSize = 0)) = true
  · exact ⟨_, [], rfl, by simp only [hskip, if_true, List.append_nil]⟩
  · refine ⟨_, [⟨u.dev.fifoNextCmd, (u.dev.fifoCommit u.dev.reservedSize).fifoNextCmd,
      contents u.written u.dev.reservedSize⟩], rfl, ?_⟩
    simp only [hskip, if_false, Bool.false_eq_true]

/-- The commands of a fence are behind the command. -/
theorem insertFence_log {v d : CommandFifo} {fence : ℕ}
    (hrun : insertFence.run v = some (fence, d)) : ∃ rest, d.log = v.log ++ rest := by
  change (if !v.hasFence then pure 1 else _ : FifoM ℕ).run v = _ at hrun
  cases hfence : v.hasFence with
  | false =>
      rw [hfence] at hrun
      cases hrun
      exact ⟨[], (List.append_nil _).symm⟩
  | true =>
      simp only [hfence, Bool.not_true, Bool.false_eq_true, if_false, StateT.run_bind,
        Option.bind_eq_bind, Option.bind_eq_some_iff] at hrun
      obtain ⟨⟨_, v'⟩, hv', ⟨ok, u⟩, hu, hrun⟩ := hrun
      cases hv'
      have hlog := fifoReserve_log hu
      cases ok with
      | false =>
          cases hrun
          exact ⟨[], by rw [hlog, List.append_nil]⟩
      | true =>
          obtain ⟨fifo, bounceBuffer, written, heq⟩ := storeWords_eq u 0
            [word svgaCmdFence, word (if v.nextFence = 0 then 1 else v.nextFence)]
          simp only [if_true, StateT.run_bind, Option.bind_eq_bind, Option.bind_eq_some_iff] at hrun
          obtain ⟨⟨_, u'⟩, hu', ⟨_, e⟩, he, hrun⟩ := hrun
          cases hrun
          cases hu'
          obtain ⟨e', rest, he', hrest⟩ := fifoCommitAll_log (u.storeWords 0
            [word svgaCmdFence, word (if v.nextFence = 0 then 1 else v.nextFence)])
          cases he'.symm.trans he
          exact ⟨rest, by rw [hrest, heq]; exact congrArg (· ++ rest) hlog⟩

/-- A fence behind a command is one more command, and does not make the method fail. -/
theorem fenceReturn_log {wanted : Bool} {v d : CommandFifo} {a : IOReturn × Option ℕ}
    (hrun : (do
      let stored ← fenceIf wanted
      return (IOReturn.success, stored) : FifoM (IOReturn × Option ℕ)).run v = some (a, d)) :
    a.1 = .success ∧ ∃ rest, d.log = v.log ++ rest := by
  rw [StateT.run_bind, Option.bind_eq_bind, Option.bind_eq_some_iff] at hrun
  obtain ⟨⟨stored, u⟩, hu, hrun⟩ := hrun
  cases hrun
  refine ⟨rfl, ?_⟩
  cases wanted with
  | false =>
      cases hu
      exact ⟨[], (List.append_nil _).symm⟩
  | true =>
      rw [fenceIf, if_pos rfl, StateT.run_bind, Option.bind_eq_bind, Option.bind_eq_some_iff] at hu
      obtain ⟨⟨fence, e⟩, he, hu⟩ := hu
      cases hu
      exact insertFence_log he

/-- Nor do the steps that follow a present. -/
theorem presentReturn_log {v d : CommandFifo} {a : IOReturn × Option ℕ}
    (hrun : (do
      let stored ← AccelCommands.presentAfter
      return (IOReturn.success, some stored) : FifoM (IOReturn × Option ℕ)).run v = some (a, d)) :
    a.1 = .success ∧ ∃ rest, d.log = v.log ++ rest := by
  simp only [AccelCommands.presentAfter, StateT.run_bind, Option.bind_eq_bind,
    Option.bind_eq_some_iff] at hrun
  obtain ⟨⟨stored, u⟩, ⟨⟨fence, e⟩, he, hu⟩, hrun⟩ := hrun
  obtain ⟨⟨_, e'⟩, he', hu⟩ := hu
  cases he'
  cases hu
  cases hrun
  obtain ⟨rest, hrest⟩ := insertFence_log he
  exact ⟨rfl, rest, hrest⟩

/-- A method that does nothing more logs nothing more. -/
theorem pureReturn_log {α : Type} {a₀ a : α} {v d : CommandFifo} (out : α → IOReturn × Option ℕ)
    (hout : (out a₀).1 = .success) (hrun : (pure a₀ : FifoM α).run v = some (a, d)) :
    (out a).1 = .success ∧ ∃ rest, d.log = v.log ++ rest := by
  cases hrun
  exact ⟨hout, [], (List.append_nil _).symm⟩

/-- A method without a fence. -/
theorem run_without_fence {m : FifoM IOReturn} {c d : CommandFifo} {a : IOReturn × Option ℕ}
    (hrun : (do
      let r ← m
      return (r, none) : FifoM (IOReturn × Option ℕ)).run c = some (a, d)) :
    ∃ r, a = (r, none) ∧ m.run c = some (r, d) := by
  rw [StateT.run_bind, Option.bind_eq_bind, Option.bind_eq_some_iff] at hrun
  obtain ⟨⟨r, u⟩, hu, hrun⟩ := hrun
  cases hrun
  exact ⟨r, rfl, hu⟩

/-- The head of a command whose elements are zeroed. -/
theorem commandHead_zeroed (cmd size k : ℕ) (fixed : List FifoWord)
    (hsize : 4 * fixed.length + 4 * k = size) :
    commandHead cmd (fixed ++ List.replicate k 0) 0 =
      ([word cmd, word size] ++ fixed) ++ List.replicate k 0 := by
  have hbytes : 4 * (fixed.length + k) + 0 = size := by omega
  rw [commandHead, List.length_append, List.length_replicate, hbytes, List.append_assoc]

section Outcomes

variable {cfg : AccelConfig} {c d : CommandFifo} {a : IOReturn × Option ℕ}

/-- `createSurface`: refused, or its words are in the log. -/
theorem outcome_createSurface {sid surfaceFlags surfaceFormat width height : FifoWord}
    (hrun : ((CommandWrapper.createSurface sid surfaceFlags surfaceFormat width height).run
      cfg).run c = some (a, d)) :
    (CommandWrapper.createSurface sid surfaceFlags surfaceFormat width height).Outcome cfg c a
      d := by
  obtain ⟨r, rfl, hcall⟩ := run_without_fence
    (m := AccelCommands.createSurface cfg sid surfaceFlags surfaceFormat width height) hrun
  cases hhave : cfg.haveSVGA3D with
  | false =>
      simp only [AccelCommands.createSurface, hhave] at hcall
      cases hcall
      exact .rejected hhave (by decide)
  | true =>
      simp only [AccelCommands.createSurface, hhave, Bool.not_true, Bool.false_eq_true,
        if_false] at hcall
      have hfill : ∀ u, Writing c 56 (commandHead 1040
          ([sid, surfaceFlags, surfaceFormat] ++ List.replicate 6 0 ++ List.replicate 3 0) 0) u →
          ∃ v, (do store 5 [1]; store 11 [width, height, 1] : FifoM Unit).run u =
            some ((), v) ∧ Writing c 56 (command
              (.createSurface sid surfaceFlags surfaceFormat width height)) v :=
        -- the head has fourteen words already
        fun u hu => ⟨_, rfl, (hu.store (i := 5) (Nat.le_add_left 5 9) [1]).store (i := 11)
          (Nat.le_add_left 11 3) [width, height, 1]⟩
      refine outcome_of_complete (fun r => (r, none)) hhave rfl hfill
        (fun v a d => pureReturn_log (fun r => (r, none)) rfl) rfl ?_
      simp only [bind_assoc]
      exact hcall

/-- `surfaceDMA2D`: refused, or its words and those of the boxes are. -/
theorem outcome_surfaceDMA2D {sid transfer : FifoWord} {region : Option IOAccelDeviceRegion}
    {extra : Option ExtraInfo} {fence : Bool}
    (hrun : ((CommandWrapper.surfaceDMA2D sid transfer region extra fence).run cfg).run c =
      some (a, d)) :
    (CommandWrapper.surfaceDMA2D sid transfer region extra fence).Outcome cfg c a d := by
  cases extra with
  | none =>
      cases hrun
      exact .rejected (Bool.and_false _) (by decide)
  | some extra =>
      cases hhave : cfg.haveSVGA3D with
      | false =>
          simp only [run, AccelCommands.surfaceDMA2D, hhave] at hrun
          cases hrun
          exact .rejected (by simp [accepted, hhave]) (by decide)
      | true =>
          simp only [run, AccelCommands.surfaceDMA2D, hhave, Bool.not_true, Bool.false_eq_true,
            if_false] at hrun
          have hlength := length_flatMap_copyBox extra (regionRects region)
          refine outcome_of_complete id (by simp [accepted, hhave]) ?_ ?_
            (fun v a d => fenceReturn_log) rfl hrun
          · simp only [SVGACommands.bytes3D, bytes, command, List.length_append, hlength,
              List.length_replicate, SVGA3dGuestImage.words, SVGAGuestPtr.words,
              SVGA3dSurfaceImageId.words, List.length_cons, List.length_nil]
            omega
          · intro u hu
            rw [commandHead_zeroed 1044 (28 + 36 * (regionRects region).length) _ _ (by
              simp only [List.length_append, List.length_cons, List.length_nil,
                SVGA3dGuestImage.words, SVGAGuestPtr.words, SVGA3dSurfaceImageId.words]
              omega)] at hu
            exact fill_tail rfl hlength.ge hu

/-- `surfaceCopy`: the same, with the rectangles as boxes of depth one. -/
theorem outcome_surfaceCopy {srcSid dstSid : FifoWord} {region : Option IOAccelDeviceRegion}
    {extra : Option ExtraInfo}
    (hrun : ((CommandWrapper.surfaceCopy srcSid dstSid region extra).run cfg).run c = some (a, d)) :
    (CommandWrapper.surfaceCopy srcSid dstSid region extra).Outcome cfg c a d := by
  obtain ⟨r, rfl, hcall⟩ := run_without_fence
    (m := AccelCommands.surfaceCopy cfg srcSid dstSid region extra) hrun
  cases extra with
  | none =>
      cases hcall
      exact .rejected (Bool.and_false _) (by decide)
  | some extra =>
      cases hhave : cfg.haveSVGA3D with
      | false =>
          simp only [AccelCommands.surfaceCopy, hhave] at hcall
          cases hcall
          exact .rejected (by simp [accepted, hhave]) (by decide)
      | true =>
          simp only [AccelCommands.surfaceCopy, hhave, Bool.not_true, Bool.false_eq_true,
            if_false] at hcall
          have hlength := length_flatMap_copyBox extra (regionRects region)
          refine outcome_of_complete (fun r => (r, none)) (by simp [accepted, hhave])
            ?_ ?_ (fun v a d => pureReturn_log (fun r => (r, none)) rfl) rfl hcall
          · simp only [SVGACommands.bytes3D, bytes, command, List.length_append, hlength,
              List.length_replicate, SVGA3dSurfaceImageId.words, List.length_cons,
              List.length_nil]
            omega
          · intro u hu
            rw [commandHead_zeroed 1042 (24 + 36 * (regionRects region).length) _ _ (by
              simp only [List.length_append, List.length_cons, List.length_nil,
                SVGA3dSurfaceImageId.words]
              omega)] at hu
            exact fill_tail rfl hlength.ge hu

/-- `surfacePresentAutoSync`: the same, with the rectangles as they are. -/
theorem outcome_surfacePresentAutoSync {sid : FifoWord} {region : Option IOAccelDeviceRegion}
    {extra : Option ExtraInfo}
    (hrun : ((CommandWrapper.surfacePresentAutoSync sid region extra).run cfg).run c =
      some (a, d)) :
    (CommandWrapper.surfacePresentAutoSync sid region extra).Outcome cfg c a d := by
  cases extra with
  | none =>
      cases hrun
      exact .rejected (Bool.and_false _) (by decide)
  | some extra =>
      cases hhave : cfg.haveSVGA3D with
      | false =>
          simp only [run, AccelCommands.surfacePresentAutoSync, hhave] at hrun
          cases hrun
          exact .rejected (by simp [accepted, hhave]) (by decide)
      | true =>
          simp only [run, AccelCommands.surfacePresentAutoSync, hhave, Bool.not_true,
            Bool.false_eq_true, if_false] at hrun
          have hlength := length_flatMap_copyRect extra (regionRects region)
          refine outcome_of_complete id (by simp [accepted, hhave]) ?_ ?_
            (fun v a d => presentReturn_log) rfl hrun
          · simp only [SVGACommands.bytes3D, bytes, command, List.length_append, hlength,
              List.length_cons, List.length_nil]
            omega
          · intro u hu
            have hsize : 4 * [sid].length + 24 * (regionRects region).length =
                4 + 24 * (regionRects region).length := rfl
            rw [commandHead, hsize, ← List.append_nil (_ ++ [sid])] at hu
            exact fill_tail (k := 0) rfl (Nat.zero_le _) hu

/-- **The outcome of a call.** -/
theorem outcome {w : CommandWrapper} (hrun : (w.run cfg).run c = some (a, d)) :
    w.Outcome cfg c a d := by
  cases w with
  | createSurface => exact outcome_createSurface hrun
  | surfaceDMA2D => exact outcome_surfaceDMA2D hrun
  | surfaceCopy => exact outcome_surfaceCopy hrun
  | surfacePresentAutoSync => exact outcome_surfacePresentAutoSync hrun

end Outcomes

/-- The condition under which the reservation is accepted. -/
theorem fits_iff (w : CommandWrapper) (c : CommandFifo) :
    w.Fits c ↔ c.dev.fifoReserveRefused w.bytes = false := by
  have haligned : w.bytes % 4 = 0 := Nat.mul_mod_right 4 _
  simp only [Fits, SVGADevice.fifoReserveRefused, haligned, Bool.or_eq_false_iff,
    decide_eq_false_iff_not, gt_iff_lt, not_lt, ne_eq, not_not, and_true, and_assoc]

end CommandWrapper

open CommandWrapper

/-- Success means a committed command, and a fence stored one, exactly when the call is turned
away at once or its command fits into the FIFO. -/
theorem success_means_emitted {cfg : AccelConfig} {w : CommandWrapper} {c d : CommandFifo}
    {r : IOReturn} {stored : Option ℕ} (hrun : (w.run cfg).run c = some ((r, stored), d)) :
    w.SuccessMeansEmitted c r stored d ↔ (w.accepted cfg = true → w.Fits c) := by
  rw [fits_iff]
  generalize hret : (r, stored) = a at hrun
  cases outcome hrun with
  | rejected hrejected hr =>
      cases hret
      refine iff_of_true ⟨fun h => absurd h hr, fun h => (by cases h), fun _ => hr⟩ fun h => ?_
      exact absurd (hrejected.symm.trans h) (by decide)
  | refused haccepted hrefused hlog =>
      cases hret
      refine iff_of_false (fun h => h.refused hrefused rfl) fun h => ?_
      exact absurd (hrefused.symm.trans (h haccepted)) (by decide)
  | emitted haccepted hfits hemitted =>
      cases hret
      refine iff_of_true ⟨fun _ => hemitted, fun _ => hemitted, fun hrefused => ?_⟩ fun _ => hfits
      exact absurd (hrefused.symm.trans hfits) (by decide)

/-- A region of so many rectangles that a copy exceeds the bounce buffer. -/
def largeRegion : IOAccelDeviceRegion :=
  ⟨⟨0, 0, 1024, 768⟩, List.replicate 1820 ⟨0, 0, 1, 1⟩⟩

/-- A copy without displacement. -/
def plainExtra : ExtraInfo := ⟨0, 4096, 0, 0, 0, 0, gmrVramWord⟩

/-- A FIFO of one MiB refuses such a copy, and `surfaceCopy` returns success all the same. -/
theorem success_without_command :
    ∃ d, ((CommandWrapper.surfaceCopy 1 2 (some largeRegion) (some plainExtra)).run fullConfig).run
        (exampleFifo 0x100000) = some ((.success, none), d) ∧
      ¬(CommandWrapper.surfaceCopy 1 2 (some largeRegion) (some plainExtra)).SuccessMeansEmitted
        (exampleFifo 0x100000) .success none d := by
  have hrects : (regionRects (some largeRegion)).length = 1820 := List.length_replicate
  have hrefused : (exampleFifo 0x100000).dev.fifoReserveRefused (SVGACommands.bytes3D
      ([1, 0, 0] ++ [2, 0, 0] ++ List.replicate (9 * 1820) 0) 0) = true := by
    rw [SVGACommands.bytes3D, List.length_append, List.length_replicate]
    decide
  obtain ⟨blocked, hbegin⟩ := (begin3D_begins _ 1042 _ 0).refused hrefused
  refine ⟨{ exampleFifo 0x100000 with blocked := blocked }, ?_, fun h => ?_⟩
  · simp only [CommandWrapper.run, AccelCommands.surfaceCopy, fullConfig, Bool.not_true,
      Bool.false_eq_true, if_false, SVGACommands.beginSurfaceCopy, SVGA3dSurfaceImageId.words,
      hrects, StateT.run_bind, hbegin]
    rfl
  · obtain ⟨e, rest, hlog, -⟩ := h.success rfl
    cases hlog

/-- A surface is created, and its command committed. -/
theorem success_means_emitted_surface :
    ∃ d, ((CommandWrapper.createSurface 1 0 2 640 480).run fullConfig).run
        (exampleFifo 0x100000) = some ((.success, none), d) ∧
      (CommandWrapper.createSurface 1 0 2 640 480).SuccessMeansEmitted (exampleFifo 0x100000)
        .success none d := by
  obtain ⟨d, hrun⟩ : ∃ d, ((CommandWrapper.createSurface 1 0 2 640 480).run fullConfig).run
      (exampleFifo 0x100000) = some ((.success, none), d) := ⟨_, rfl⟩
  refine ⟨d, hrun, (success_means_emitted hrun).mpr fun _ => ?_⟩
  exact ⟨by decide, by decide, rfl⟩

end DockerMacos
