import Mathlib.Data.List.Nodup
import Mathlib.Data.List.Infix

/-!
# The Jetsam Daemon

`tests/jetsam-raise.c` scans the process table every five seconds and raises the memory limit
of the processes whose names it knows. It looks at a pid once: the pid goes into a table of
4096 places before its name is asked for, and what comes of the look is not kept.

## Images and pids

A process is told apart from others by its image, a new one with each start and each `exec`.
The daemon sees the pids only. So a process that calls `exec` after its pid has been seen, or
one that gets the pid of another, is missed.

## Scans

`scanOnce` works on a snapshot: the process table as it is during one scan. Any sequence of
snapshots may follow each other, and what the limit call answers is part of the process. The
table of pids has an end, and so has the list that the kernel fills.

## Main results

* `mem_log_scanOnce_iff`: the reports of one scan.
* `not_raised_of_seen`: a process that is missed once is missed for good, as its pid stays in
  the table (`mem_seen_scanOnce`).
* `exists_of_mem_log`: every report is about a target.
* `handled_throughout_iff`: when every scan leaves every target with a raised limit.
-/

namespace DockerMacos

/-! ### Targets and reports -/

/-- `struct target` -/
structure Target where
  name : String
  limitMb : ℤ
  deriving DecidableEq

/-- `gTargets` -/
def gTargets : List Target :=
  [⟨"WindowServer", 1024⟩, ⟨"wallpaperexportd", 512⟩, ⟨"Dock", 512⟩, ⟨"Finder", 512⟩,
    ⟨"SystemUIServer", 256⟩, ⟨"ControlCenter", 256⟩, ⟨"NotificationCenter", 256⟩,
    ⟨"Spotlight", 256⟩, ⟨"cfprefsd", 256⟩, ⟨"loginwindow", 256⟩, ⟨"coreaudiod", 256⟩,
    ⟨"coreduetd", 256⟩, ⟨"assistantd", 256⟩, ⟨"mdworker_shared", 512⟩]

/-- `match_target` -/
def matchTarget (name : String) : Option Target := gTargets.find? fun t => t.name = name

/-- `memorystatus_memlimit_properties_t` -/
structure MemlimitProperties where
  memlimitActive : ℤ
  memlimitActiveAttr : ℕ
  memlimitInactive : ℤ
  memlimitInactiveAttr : ℕ

/-- `MEMORYSTATUS_CMD_SET_MEMLIMIT_PROPERTIES` and `MEMORYSTATUS_CMD_SET_MEMLIMIT_PROPERTIES2` -/
inductive MemorystatusCommand
  | setMemlimitProperties
  | setMemlimitProperties2

/-- What a system call returns, and the `errno` that it leaves. -/
structure SyscallAnswer where
  r : ℤ
  errno : ℤ

/-- `EINVAL` -/
def einval : ℤ := 22

/-- What `raise_process` prints. -/
inductive LimitReport
  /-- `pid %d (%s): FAILED %d %s` -/
  | failed (pid : ℤ) (t : Target) (errno : ℤ)
  /-- `pid %d (%s) -> %d MB OK` -/
  | ok (pid : ℤ) (t : Target)
  deriving DecidableEq

/-- A process as it is during one scan. -/
structure Process where
  pid : ℤ
  /-- The image that runs under the pid. -/
  image : ℕ
  /-- `proc_name`; `none` where the call returns no name. -/
  name : Option String
  /-- `memorystatus_control` for the pid. -/
  control : MemorystatusCommand → MemlimitProperties → SyscallAnswer

/-- The properties that `raise_process` sets. -/
def Target.properties (t : Target) : MemlimitProperties := ⟨t.limitMb, 0, t.limitMb, 0⟩

/-- The answer that counts, of the new command or of the legacy one. -/
def raiseAnswer (p : Process) (t : Target) : SyscallAnswer :=
  let first := p.control .setMemlimitProperties2 t.properties
  if first.r < 0 ∧ first.errno = einval then p.control .setMemlimitProperties t.properties
  else first

/-- `raise_process` -/
def raiseProcess (p : Process) (t : Target) : LimitReport :=
  let answer := raiseAnswer p t
  if answer.r < 0 then .failed p.pid t answer.errno else .ok p.pid t

/-- The target that the name of the process stands for. -/
def Process.target (p : Process) : Option Target := p.name.bind matchTarget

/-- The limit call for the process succeeds. -/
def Process.Accepts (p : Process) (t : Target) : Prop := 0 ≤ (raiseAnswer p t).r

/-- What `match_target` finds is in the table, under the name that it is asked for. -/
theorem matchTarget_eq_some {name : String} {t : Target} (h : matchTarget name = some t) :
    t ∈ gTargets ∧ t.name = name :=
  ⟨List.mem_of_find?_eq_some h, by simpa using List.find?_some h⟩

/-- The daemon reports a raised limit exactly when the limit call succeeds. -/
theorem raiseProcess_eq_ok_iff {p : Process} {t u : Target} {pid : ℤ} :
    raiseProcess p t = .ok pid u ↔ p.pid = pid ∧ t = u ∧ p.Accepts t := by
  rw [Process.Accepts, raiseProcess]
  split
  · next h =>
    have hnot : ¬ 0 ≤ (raiseAnswer p t).r := by omega
    simp [hnot]
  · next h =>
    have hnonneg : 0 ≤ (raiseAnswer p t).r := by omega
    simp [hnonneg]

/-! ### The pids seen -/

/-- The places of `seen_pids`. -/
def maxSeen : ℕ := 4096

/-- `seen_pids`, as far as `seen_count` -/
structure SeenPids where
  pids : List ℤ
  nodup : pids.Nodup
  length_le : pids.length ≤ maxSeen

/-- The pid goes to the end of the table if there is a place for it. -/
def SeenPids.record (seen : SeenPids) (pid : ℤ) (h : pid ∉ seen.pids) : SeenPids :=
  if hroom : seen.pids.length < maxSeen then
    { pids := seen.pids.concat pid
      nodup := seen.nodup.concat h
      length_le := by
        rw [List.length_concat]
        exact hroom }
  else seen

/-- `is_seen` -/
def isSeen (seen : SeenPids) (pid : ℤ) : Bool × SeenPids :=
  if h : pid ∈ seen.pids then (true, seen) else (false, seen.record pid h)

/-- The other pids are in the table as before. -/
theorem SeenPids.mem_record {seen : SeenPids} {pid q : ℤ} {h : pid ∉ seen.pids} (hq : q ≠ pid) :
    q ∈ (seen.record pid h).pids ↔ q ∈ seen.pids := by
  rw [SeenPids.record]
  split
  · simp [List.concat_eq_append, hq]
  · exact Iff.rfl

/-! ### One scan -/

/-- The process table of one scan. -/
structure Snapshot where
  /-- The processes, in the order in which the kernel lists them. -/
  table : List Process
  /-- `proc_listpids` fails. -/
  failed : Bool
  pids_nodup : (table.map Process.pid).Nodup
  images_nodup : (table.map Process.image).Nodup

/-- The places of `pids`. -/
def maxListed : ℕ := 8192

/-- `proc_listpids`, with the process behind each pid -/
def procListpids (snap : Snapshot) : List Process :=
  if snap.failed then [] else snap.table.take maxListed

/-- The daemon. -/
structure Jetsam where
  seen : SeenPids
  /-- The reports, each with the image that ran under the pid. -/
  log : List (ℕ × LimitReport)

/-- The body of the loop in `scan_once`. -/
def scanPid (s : Jetsam) (p : Process) : Jetsam :=
  if p.pid ≤ 0 then s
  else
    match isSeen s.seen p.pid with
    | (true, _) => s
    | (false, seen) =>
        match p.name with
        | none => { s with seen }
        | some name =>
            match matchTarget name with
            | none => { s with seen }
            | some t => { seen, log := s.log.concat (p.image, raiseProcess p t) }

/-- `scan_once` -/
def scanOnce (s : Jetsam) (snap : Snapshot) : Jetsam := (procListpids snap).foldl scanPid s

/-- The daemon before its first scan. -/
def jetsamStart : Jetsam := ⟨⟨[], List.nodup_nil, Nat.zero_le _⟩, []⟩

/-- The daemon after the scans. -/
def scans (snaps : List Snapshot) : Jetsam := snaps.foldl scanOnce jetsamStart

/-- The last scan comes after the others. -/
theorem scans_concat (snaps : List Snapshot) (snap : Snapshot) :
    scans (snaps ++ [snap]) = scanOnce (scans snaps) snap := by
  rw [scans, List.foldl_append]
  rfl

/-- The daemon looks at the process. -/
def Process.Fresh (p : Process) (seen : SeenPids) : Prop := 0 < p.pid ∧ p.pid ∉ seen.pids

/-- What one look can do. -/
theorem scanPid_cases (s : Jetsam) (p : Process) :
    (¬ p.Fresh s.seen ∧ scanPid s p = s) ∨
    ∃ h : p.pid ∉ s.seen.pids, p.Fresh s.seen ∧
      ((p.target = none ∧ scanPid s p = ⟨s.seen.record p.pid h, s.log⟩) ∨
        ∃ t, p.target = some t ∧
          scanPid s p = ⟨s.seen.record p.pid h, s.log.concat (p.image, raiseProcess p t)⟩) := by
  by_cases hpos : p.pid ≤ 0
  · exact .inl ⟨fun hfresh => absurd hfresh.1 (by omega), by rw [scanPid, if_pos hpos]⟩
  · rw [scanPid, if_neg hpos]
    by_cases hseen : p.pid ∈ s.seen.pids
    · refine .inl ⟨fun hfresh => hfresh.2 hseen, ?_⟩
      simp only [isSeen, dif_pos hseen]
    · refine .inr ⟨hseen, ⟨by omega, hseen⟩, ?_⟩
      simp only [isSeen, dif_neg hseen, Process.target]
      cases hname : p.name with
      | none => exact .inl ⟨rfl, rfl⟩
      | some name =>
        cases hmatch : matchTarget name with
        | none => exact .inl ⟨hmatch, by simp only [hmatch]⟩
        | some t => exact .inr ⟨t, hmatch, by simp only [hmatch]⟩

/-- A look adds a report of a fresh process that is a target, and nothing else. -/
theorem mem_log_scanPid {s : Jetsam} {p : Process} {x : ℕ × LimitReport} :
    x ∈ (scanPid s p).log ↔ x ∈ s.log ∨
      ∃ t, p.Fresh s.seen ∧ p.target = some t ∧ x = (p.image, raiseProcess p t) := by
  obtain ⟨hnot, hs⟩ | ⟨_, hfresh, ⟨hnone, hs⟩ | ⟨t, ht, hs⟩⟩ := scanPid_cases s p
  · simp [hs, hnot]
  · simp [hs, hnone]
  · simp [hs, hfresh, ht, List.concat_eq_append]

/-- A look at one pid leaves the others as they are. -/
theorem Process.fresh_scanPid {s : Jetsam} {p q : Process} (hpid : q.pid ≠ p.pid) :
    q.Fresh (scanPid s p).seen ↔ q.Fresh s.seen := by
  obtain ⟨_, hs⟩ | ⟨_, _, ⟨_, hs⟩ | ⟨t, _, hs⟩⟩ := scanPid_cases s p
  · rw [hs]
  · rw [hs, Process.Fresh, Process.Fresh, SeenPids.mem_record hpid]
  · rw [hs, Process.Fresh, Process.Fresh, SeenPids.mem_record hpid]

/-- So does a look at each of several processes with different pids. -/
theorem mem_log_foldl {ps : List Process} (hps : (ps.map Process.pid).Nodup) (s : Jetsam)
    {x : ℕ × LimitReport} :
    x ∈ (ps.foldl scanPid s).log ↔ x ∈ s.log ∨ ∃ p ∈ ps, ∃ t,
      p.Fresh s.seen ∧ p.target = some t ∧ x = (p.image, raiseProcess p t) := by
  induction ps generalizing s with
  | nil => simp
  | cons p ps ih =>
    rw [List.map_cons, List.nodup_cons] at hps
    have hother : ∀ q ∈ ps, (q.Fresh (scanPid s p).seen ↔ q.Fresh s.seen) := fun q hq =>
      Process.fresh_scanPid fun heq => hps.1 (heq ▸ List.mem_map_of_mem hq)
    rw [List.foldl_cons, ih hps.2, mem_log_scanPid, or_assoc]
    refine or_congr_right ?_
    simp only [List.mem_cons, exists_eq_or_imp]
    refine or_congr_right ?_
    constructor
    · rintro ⟨q, hq, t, hfresh, hx⟩
      exact ⟨q, hq, t, (hother q hq).1 hfresh, hx⟩
    · rintro ⟨q, hq, t, hfresh, hx⟩
      exact ⟨q, hq, t, (hother q hq).2 hfresh, hx⟩

/-- What is listed is in the table of processes. -/
theorem mem_table_of_listed {snap : Snapshot} {p : Process} (h : p ∈ procListpids snap) :
    p ∈ snap.table := by
  rw [procListpids] at h
  split at h
  · exact absurd h List.not_mem_nil
  · exact List.mem_of_mem_take h

/-- No pid is listed twice. -/
theorem Snapshot.listed_nodup (snap : Snapshot) :
    ((procListpids snap).map Process.pid).Nodup := by
  rw [procListpids]
  split
  · exact List.nodup_nil
  · exact snap.pids_nodup.sublist ((List.take_sublist _ _).map _)

/-- **The reports of one scan.** They are about the listed targets whose pids the daemon has
not seen. -/
theorem mem_log_scanOnce_iff {s : Jetsam} {snap : Snapshot} {x : ℕ × LimitReport} :
    x ∈ (scanOnce s snap).log ↔ x ∈ s.log ∨ ∃ p ∈ procListpids snap, ∃ t,
      p.Fresh s.seen ∧ p.target = some t ∧ x = (p.image, raiseProcess p t) :=
  mem_log_foldl snap.listed_nodup s

/-! ### Limits raised -/

/-- A call for the image has raised its limit. -/
def Jetsam.Raised (s : Jetsam) (image : ℕ) : Prop := ∃ pid t, (image, LimitReport.ok pid t) ∈ s.log

/-- Every target of the table has had its limit raised. -/
def Jetsam.Handled (s : Jetsam) (snap : Snapshot) : Prop :=
  ∀ p ∈ snap.table, ∀ t, p.target = some t → s.Raised p.image

/-- Every target of the table whose limit has not been raised is listed under a pid that the
daemon has not seen, and the limit call succeeds. -/
def Jetsam.Reaches (s : Jetsam) (snap : Snapshot) : Prop :=
  ∀ p ∈ snap.table, ∀ t, p.target = some t →
    s.Raised p.image ∨ (p ∈ procListpids snap ∧ p.Fresh s.seen ∧ p.Accepts t)

/-- A scan raises the limits of the fresh targets that are listed and accept the limit. -/
theorem raised_scanOnce_iff {s : Jetsam} {snap : Snapshot} {image : ℕ} :
    (scanOnce s snap).Raised image ↔ s.Raised image ∨ ∃ p ∈ procListpids snap, ∃ t,
      p.image = image ∧ p.target = some t ∧ p.Fresh s.seen ∧ p.Accepts t := by
  simp only [Jetsam.Raised, mem_log_scanOnce_iff]
  constructor
  · rintro ⟨pid, t, hold | ⟨p, hp, u, hfresh, htarget, heq⟩⟩
    · exact .inl ⟨pid, t, hold⟩
    · obtain ⟨himage, hok⟩ := Prod.mk.inj heq
      obtain ⟨-, -, haccepts⟩ := raiseProcess_eq_ok_iff.1 hok.symm
      exact .inr ⟨p, hp, u, himage.symm, htarget, hfresh, haccepts⟩
  · rintro (⟨pid, t, hold⟩ | ⟨p, hp, t, himage, htarget, hfresh, haccepts⟩)
    · exact ⟨pid, t, .inl hold⟩
    · have hok : raiseProcess p t = .ok p.pid t :=
        raiseProcess_eq_ok_iff.2 ⟨rfl, rfl, haccepts⟩
      exact ⟨p.pid, t, .inr ⟨p, hp, t, hfresh, htarget, by rw [hok, himage]⟩⟩

/-- What one scan leaves behind depends on the state before it alone. -/
theorem handled_scanOnce_iff {s : Jetsam} {snap : Snapshot} :
    (scanOnce s snap).Handled snap ↔ s.Reaches snap := by
  refine forall_congr' fun p => forall_congr' fun hp => forall_congr' fun t =>
    forall_congr' fun ht => ?_
  rw [raised_scanOnce_iff]
  refine or_congr_right ?_
  constructor
  · rintro ⟨q, hq, u, himage, htarget, hfresh, haccepts⟩
    obtain rfl : q = p :=
      List.inj_on_of_nodup_map snap.images_nodup (mem_table_of_listed hq) hp himage
    obtain rfl : u = t := Option.some.inj (htarget.symm.trans ht)
    exact ⟨hq, hfresh, haccepts⟩
  · rintro ⟨hlisted, hfresh, haccepts⟩
    exact ⟨p, hlisted, t, rfl, ht, hfresh, haccepts⟩

/-! ### Missed processes -/

/-- A pid in the table stays there. -/
theorem SeenPids.mem_record_of_mem {seen : SeenPids} {pid q : ℤ} (h : pid ∉ seen.pids)
    (hq : q ∈ seen.pids) : q ∈ (seen.record pid h).pids := by
  have hne : q ≠ pid := fun heq => h (heq ▸ hq)
  exact (SeenPids.mem_record hne).2 hq

/-- A pid stays in the table. -/
theorem mem_seen_scanOnce {s : Jetsam} {pid : ℤ} (hpid : pid ∈ s.seen.pids) (snap : Snapshot) :
    pid ∈ (scanOnce s snap).seen.pids := by
  rw [scanOnce]
  induction procListpids snap generalizing s with
  | nil => exact hpid
  | cons p ps ih =>
    refine ih ?_
    obtain ⟨_, hs⟩ | ⟨h, _, ⟨_, hs⟩ | ⟨t, _, hs⟩⟩ := scanPid_cases s p
    · rwa [hs]
    · rw [hs]
      exact SeenPids.mem_record_of_mem h hpid
    · rw [hs]
      exact SeenPids.mem_record_of_mem h hpid

/-- **What is missed once is missed for good.** No later scan raises the limit of an image that
runs under a pid of the table. -/
theorem not_raised_of_seen {s : Jetsam} {pid : ℤ} {image : ℕ} {snaps : List Snapshot}
    (hpid : pid ∈ s.seen.pids) (hraised : ¬s.Raised image)
    (hunder : ∀ snap ∈ snaps, ∀ p ∈ snap.table, p.image = image → p.pid = pid) :
    ¬(snaps.foldl scanOnce s).Raised image := by
  induction snaps generalizing s with
  | nil => exact hraised
  | cons snap snaps ih =>
    refine ih (mem_seen_scanOnce hpid snap) ?_ fun snap' hsnap' =>
      hunder snap' (List.mem_cons_of_mem snap hsnap')
    rw [raised_scanOnce_iff]
    rintro (hold | ⟨p, hp, _, himage, -, hfresh, -⟩)
    · exact hraised hold
    · have hsame := hunder snap List.mem_cons_self p (mem_table_of_listed hp) himage
      exact hfresh.2 (hsame ▸ hpid)

/-- **Every report is about a target.** The image in front of it was a listed process with the
name of the target, in one of the scans. -/
theorem exists_of_mem_log {snaps : List Snapshot} {x : ℕ × LimitReport}
    (hx : x ∈ (scans snaps).log) :
    ∃ snap ∈ snaps, ∃ p ∈ procListpids snap, ∃ t ∈ gTargets,
      p.name = some t.name ∧ x = (p.image, raiseProcess p t) := by
  induction snaps using List.reverseRecOn with
  | nil => exact absurd hx List.not_mem_nil
  | append_singleton snaps snap ih =>
    rw [scans_concat, mem_log_scanOnce_iff] at hx
    obtain hold | ⟨p, hp, t, -, ht, heq⟩ := hx
    · obtain ⟨snap', hsnap', hrest⟩ := ih hold
      exact ⟨snap', List.mem_append_left _ hsnap', hrest⟩
    · obtain ⟨name, hname, hmatch⟩ := Option.bind_eq_some_iff.1 ht
      obtain ⟨hmem, rfl⟩ := matchTarget_eq_some hmatch
      exact ⟨snap, List.mem_append_right _ (List.mem_singleton_self snap), p, hp, t, hmem,
        hname, heq⟩

/-- **The limits that are raised.** Every scan leaves every target with a raised limit exactly
when every scan finds each target raised or reaches it at its first sight. -/
theorem handled_throughout_iff (snaps : List Snapshot) :
    (∀ before snap, before ++ [snap] <+: snaps → (scans (before ++ [snap])).Handled snap) ↔
      ∀ before snap, before ++ [snap] <+: snaps → (scans before).Reaches snap := by
  refine forall_congr' fun before => forall_congr' fun snap => forall_congr' fun _ => ?_
  rw [scans_concat]
  exact handled_scanOnce_iff

/-! ### A process that execs -/

/-- A process whose limit calls succeed. -/
def execProcess (image : ℕ) (name : String) : Process := ⟨120, image, some name, fun _ _ => ⟨0, 0⟩⟩

/-- A process table with this one process. -/
def onlyProcess (p : Process) : Snapshot :=
  ⟨[p], false, List.nodup_singleton _, List.nodup_singleton _⟩

/-- The pid of `cfprefsd` is first seen while it is still that of `xpcproxy`. -/
theorem exec_not_raised :
    ¬ ∀ before snap, (scans (before ++ [snap])).Handled snap := by
  intro hall
  have hhandled := hall [onlyProcess (execProcess 1 "xpcproxy")]
    (onlyProcess (execProcess 2 "cfprefsd"))
  obtain ⟨pid, t, hmem⟩ := hhandled (execProcess 2 "cfprefsd") (List.mem_singleton_self _)
    ⟨"cfprefsd", 256⟩ (by decide +kernel)
  revert hmem
  rw [show (scans ([onlyProcess (execProcess 1 "xpcproxy")] ++
    [onlyProcess (execProcess 2 "cfprefsd")])).log = [] by decide +kernel]
  exact List.not_mem_nil

end DockerMacos
