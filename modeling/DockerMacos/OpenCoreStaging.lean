import Mathlib.Algebra.Group.Nat.Defs
import DockerMacos.Launchers

/-!
# Staging OpenCore

A launcher that finds no `OpenCore.img` copies the built-in image; one that finds the file takes
it as it is. The file is there from the first moment of a copy on, and stays if the copy is
broken off. So what a launcher boots from depends on what the others were doing when it looked.

## Whole files

A file is whole if it is the operator's own or a complete copy (`Whole`). A copy is one step for
every block, and any number of other launchers' steps may come in between.

## Exclusion

`Staged` says what a launcher finds once it is past its check, and `Excludes` that no two
launchers are in each other's way. Both are kept by every turn in which a staging check finds no
incomplete file and nobody copying (`ChecksWhole`).

## Main results

* `Launches.Staging.step`: what a turn leaves of the launchers behind their staging check.
* `boots_whole`: launchers that look at a file that is whole, or at none, while no other copies
  boot from a whole file.
-/

namespace DockerMacos

/-- The operator's own file, or a complete copy. -/
def OpenCoreImage.Whole (cfg : LaunchConfig) : OpenCoreImage → Prop
  | .own => True
  | .copy written => ∀ k < cfg.blocks, written k = true

/-- `OpenCore.img` is whole if it is there. -/
def DataDir.Whole (cfg : LaunchConfig) (d : DataDir) : Prop :=
  ∀ img, d.opencore = some img → img.Whole cfg

namespace Launcher

/-- The launcher has found the file missing and has not finished its copy. -/
def Copies (p : Launcher) : Prop := p.stage = .missing ∨ ∃ k, p.stage = .copying k

/-- The launcher is past its staging check. -/
def Past (p : Launcher) : Prop := p.stage = .staged ∨ p.stage = .waited ∨ p.stage = .booted

/-- What a launcher finds of the file. -/
structure Staged (cfg : LaunchConfig) (d : DataDir) (p : Launcher) : Prop where
  copying : ∀ k, p.stage = .copying k →
    ∃ written, d.opencore = some (.copy written) ∧ ∀ j < k, written j = true
  whole : p.Past → d.Whole cfg
  there : p.Past → d.opencore.isSome ∨ p.script = .test ∧ cfg.builtin = false

/-- While a launcher copies, no other one copies or is past its check. -/
def Excludes (p m : Launcher) : Prop := p.Copies → ¬m.Copies ∧ ¬m.Past

end Launcher

/-- The turn boots a VM from an `OpenCore.img` that is neither the operator's own nor a complete
copy. Phase 0 of `test` does not attach the file. -/
def Launches.BootsPartial (cfg : LaunchConfig) (w : Launches) : LaunchTurn → Prop
  | .next i .proceed => ∃ p q, w.procs i = some p ∧ p.stage = .staged ∧
      p.afterStaging w.shared = some q ∧ q.stage = .booted ∧
      ¬(p.script = .test ∧ p.phase = 0) ∧
      ¬∃ img, w.shared.opencore = some img ∧ img.Whole cfg
  | _ => False

/-- A launcher that makes its staging check finds no incomplete file, and no other is copying. -/
def Launches.ChecksWhole (cfg : LaunchConfig) (w : Launches) : LaunchTurn → Prop
  | .next i .proceed => ∀ p, w.procs i = some p → p.stage = .validated →
      w.shared.Whole cfg ∧ ∀ j m, j ≠ i → w.procs j = some m → ¬m.Copies
  | _ => True

/-- The launchers, each with what it finds of the file, and the exclusion of every two. -/
structure Launches.Staging (cfg : LaunchConfig) (w : Launches) : Prop where
  each : w.Each (Launcher.Staged cfg)
  pairs : w.Pairs Launcher.Excludes

section Steps

variable {cfg : LaunchConfig} {d d' : DataDir} {p m : Launcher} {p' : Option Launcher}

/-- Only a launcher that copies changes the file. -/
theorem proceed_opencore (h : proceed cfg d p = some (d', p')) (hp : ¬p.Copies) :
    d'.opencore = d.opencore := by
  unfold proceed at h
  split at h
  all_goals grind [Launcher.Copies]

/-- A file that has not changed is to a launcher what it was. -/
theorem Launcher.Staged.congr (h : m.Staged cfg d) (hfile : d'.opencore = d.opencore) :
    m.Staged cfg d' := by
  refine ⟨fun k hk => hfile ▸ h.copying k hk, fun hp => ?_, fun hp => hfile ▸ h.there hp⟩
  exact fun img himg => h.whole hp img (hfile ▸ himg)

/-- To a launcher that neither copies nor is past its check any file is good. -/
theorem Launcher.Staged.of_before (hcopies : ¬m.Copies) (hpast : ¬m.Past) : m.Staged cfg d :=
  ⟨fun k hk => absurd (.inr ⟨k, hk⟩) hcopies, fun h => absurd h hpast, fun h => absurd h hpast⟩

/-- The next command of a launcher leaves another one with what it finds. -/
theorem Launcher.Staged.other (hm : m.Staged cfg d) (hexcl : p.Excludes m)
    (h : proceed cfg d p = some (d', p')) : m.Staged cfg d' := by
  by_cases hp : p.Copies
  · exact .of_before (hexcl hp).1 (hexcl hp).2
  · exact hm.congr (proceed_opencore h hp)

/-- What the staging check leads to. -/
theorem Launcher.stageCheck_cases {q : Launcher} (h : p.stageCheck cfg d = some q) :
    q.stage = .staged ∧ (d.opencore.isSome ∨ q.script = .test ∧ cfg.builtin = false) ∨
      q.stage = .missing ∧ d.opencore = none ∧ cfg.builtin = true := by
  unfold stageCheck at h
  grind [Option.isSome_iff_ne_none]

/-- What the steps after the staging lead to. -/
theorem Launcher.afterStaging_cases {q : Launcher} (h : p.afterStaging d = some q) :
    q.script = p.script ∧ (q.stage = .waited ∨ q.stage = .booted) := by
  unfold afterStaging at h
  grind

/-- A stage in which a launcher neither copies nor is past its check. -/
theorem Launcher.before_of_stage (h : m.stage = .start ∨ m.stage = .validated) :
    ¬m.Copies ∧ ¬m.Past := by
  rcases h with h | h <;> simp [Copies, Past, h]

/-- The next command of a launcher: what it finds of the file afterwards. -/
theorem Launcher.Staged.proceed (hs : p.Staged cfg d)
    (hcheck : p.stage = .validated → d.Whole cfg)
    (h : DockerMacos.proceed cfg d p = some (d', p')) : ∀ q, p' = some q → q.Staged cfg d' := by
  rintro q rfl
  unfold DockerMacos.proceed at h
  split at h
  case h_1 =>
    have hq : q.stage = .validated := by grind
    exact .of_before (before_of_stage (.inr hq)).1 (before_of_stage (.inr hq)).2
  case h_2 hstage =>
    obtain ⟨rfl, hq⟩ := Prod.mk.inj (Option.some.inj h)
    rcases stageCheck_cases hq with ⟨hstaged, hthere⟩ | ⟨hmissing, -⟩
    · exact ⟨fun k hk => by simp [hstaged] at hk, fun _ => hcheck hstage, fun _ => hthere⟩
    · exact ⟨fun k hk => by simp [hmissing] at hk, fun hp => by simp [Past, hmissing] at hp,
        fun hp => by simp [Past, hmissing] at hp⟩
  case h_3 =>
    obtain ⟨rfl, hq⟩ := Prod.mk.inj (Option.some.inj h)
    obtain rfl := Option.some.inj hq
    refine ⟨fun k hk => ⟨_, rfl, fun j hj => ?_⟩, fun hp => by simp [Past] at hp,
      fun hp => by simp [Past] at hp⟩
    obtain rfl : 0 = k := by simpa using hk
    omega
  case h_4 k hstage =>
    obtain ⟨written, hfile, hwritten⟩ := hs.copying k hstage
    split at h
    · obtain ⟨rfl, hq⟩ := Prod.mk.inj (Option.some.inj h)
      obtain rfl := Option.some.inj hq
      refine ⟨fun l hl => ⟨Function.update written k true,
        by simp [hfile, OpenCoreImage.writeBlock],
        fun j hj => ?_⟩, fun hp => by simp [Past] at hp, fun hp => by simp [Past] at hp⟩
      obtain rfl : k + 1 = l := by simpa using hl
      by_cases hjk : j = k
      · rw [hjk, Function.update_self]
      · rw [Function.update_of_ne hjk]
        exact hwritten j (by omega)
    · next hend =>
      obtain ⟨rfl, hq⟩ := Prod.mk.inj (Option.some.inj h)
      obtain rfl := Option.some.inj hq
      refine ⟨fun l hl => by simp at hl, fun _ img himg => ?_, fun _ => .inl (by simp [hfile])⟩
      obtain rfl := Option.some.inj (hfile.symm.trans himg)
      exact fun j hj => hwritten j (by omega)
  case h_5 hstage =>
    obtain ⟨rfl, hq⟩ := Prod.mk.inj (Option.some.inj h)
    obtain ⟨hscript, hlater⟩ := afterStaging_cases hq
    refine ⟨fun k hk => by simp [hk] at hlater, fun _ => hs.whole (.inl hstage), fun _ => ?_⟩
    exact hscript ▸ hs.there (.inl hstage)
  case h_6 =>
    have hq : q.stage = .start := by grind
    exact .of_before (before_of_stage (.inl hq)).1 (before_of_stage (.inl hq)).2
  case h_7 => cases h

/-- A launcher comes to copy from its staging check, and past the check from there as well. -/
theorem proceed_stage {q : Launcher} (h : proceed cfg d p = some (d', some q)) :
    (q.Copies → p.Copies ∨ p.stage = .validated ∧ d.opencore = none ∧ cfg.builtin = true) ∧
      (q.Past → p.Copies ∨ p.Past ∨ p.stage = .validated) := by
  unfold proceed at h
  split at h
  case h_2 hstage =>
    refine ⟨fun hcopies => .inr ⟨hstage, ?_⟩, fun _ => .inr (.inr hstage)⟩
    rcases Launcher.stageCheck_cases (Prod.mk.inj (Option.some.inj h)).2 with ⟨hstaged, -⟩ |
      ⟨-, hnone⟩
    · simp [Launcher.Copies, hstaged] at hcopies
    · exact hnone
  case h_5 hstage =>
    obtain ⟨-, hlater⟩ := Launcher.afterStaging_cases (Prod.mk.inj (Option.some.inj h)).2
    exact ⟨fun hcopies => by grind [Launcher.Copies], fun _ => .inr (.inl (.inl hstage))⟩
  all_goals grind [Launcher.Copies, Launcher.Past]

/-- The next command of a launcher keeps the exclusion, if its staging check is made while no
other copies. -/
theorem Launcher.Excludes.proceed {q : Launcher} (hpm : p.Excludes m) (hmp : m.Excludes p)
    (hm : m.Staged cfg d) (hcheck : p.stage = .validated → ¬m.Copies)
    (h : DockerMacos.proceed cfg d p = some (d', some q)) : q.Excludes m ∧ m.Excludes q := by
  obtain ⟨hcopies, hpast⟩ := proceed_stage h
  constructor
  · intro hq
    rcases hcopies hq with hp | ⟨hstage, hnone, hbuiltin⟩
    · exact hpm hp
    · refine ⟨hcheck hstage, fun hmpast => ?_⟩
      rcases hm.there hmpast with hthere | ⟨-, hnot⟩
      · simp [hnone] at hthere
      · simp [hbuiltin] at hnot
  · intro hmc
    have hp := hmp hmc
    have hstage : p.stage ≠ .validated := fun hstage => hcheck hstage hmc
    exact ⟨fun hq => (hcopies hq).elim hp.1 fun hv => hstage hv.1,
      fun hq => (hpast hq).elim hp.1 fun hv => hv.elim hp.2 hstage⟩

end Steps

/-- **Step lemma.** Every turn in which a staging check finds no incomplete file, and no other
launcher copying, keeps what the launchers find and the exclusion. -/
theorem Launches.Staging.step {cfg : LaunchConfig} {w t : Launches} {a : LaunchTurn}
    (h : Launches.Staging cfg w) (hcheck : Launches.ChecksWhole cfg w a)
    (hstep : w.step (launching cfg) a = some t) : Launches.Staging cfg t := by
  rcases Processes.step_cases hstep with ⟨i, p, rfl, -, hinit, rfl⟩ |
    ⟨i, k, p, d', p', rfl, hp, hnext, rfl⟩
  · have hstart : p.stage = .start := by simpa [launching] using hinit
    obtain ⟨hcopies, hpast⟩ := Launcher.before_of_stage (.inl hstart)
    refine ⟨.update (fun j m _ hm => h.each j m hm) fun q hq => ?_,
      h.pairs.update fun j m q _ _ hq => ?_⟩
    · exact Option.some.inj hq ▸ .of_before hcopies hpast
    · obtain rfl := Option.some.inj hq
      exact ⟨fun hc => absurd hc hcopies, fun _ => ⟨hcopies, hpast⟩⟩
  · obtain _ | _ | _ := k
    · refine ⟨.update (fun j m hj hm => ?_) ?_, h.pairs.update fun j m q hj hm hq => ?_⟩
      · exact (h.each j m hm).other (h.pairs i j p m hj.symm hp hm) hnext
      · exact (h.each i p hp).proceed (fun hv => (hcheck p hp hv).1) hnext
      · subst hq
        exact (h.pairs i j p m hj.symm hp hm).proceed (h.pairs j i m p hj hm hp)
          (h.each j m hm) (fun hv => (hcheck p hp hv).2 j m hj hm) hnext
    · simp only [launching, Option.ite_none_right_eq_some, Option.some.injEq,
        Prod.mk.injEq] at hnext
      obtain ⟨-, rfl, rfl⟩ := hnext
      refine ⟨.update (fun j m _ hm => (h.each j m hm).congr rfl) fun q hq => ?_,
        h.pairs.update fun j m q hj hm hq => ?_⟩
      · exact Option.some.inj hq ▸ (h.each i p hp).congr rfl
      · obtain rfl := Option.some.inj hq
        exact ⟨h.pairs i j p m hj.symm hp hm, h.pairs j i m p hj hm hp⟩
    · obtain ⟨rfl, rfl⟩ := Prod.mk.inj (Option.some.inj hnext)
      exact ⟨.update (fun j m _ hm => h.each j m hm) (fun q hq => by cases hq),
        h.pairs.update (fun j m q _ _ hq => by cases hq)⟩

/-- **Staging is all or nothing**, in a run in which every staging check finds no incomplete
file and no other launcher copying: in no state is a VM about to boot from a partial file. -/
theorem boots_whole {cfg : LaunchConfig} {d : DataDir} {as : List LaunchTurn} {t : Launches}
    (hrun : Run (Processes.step (launching cfg)) (Launches.ChecksWhole cfg) (noLaunches d) as t)
    (a : LaunchTurn) : ¬Launches.BootsPartial cfg t a := by
  have hstaging : Launches.Staging cfg t :=
    hrun.invariant (I := Launches.Staging cfg) (fun _ _ _ hI hC hstep => hI.step hC hstep)
      ⟨fun i p hp => (by cases hp), fun i j p q _ hp => (by cases hp)⟩
  intro hboots
  obtain ⟨i, p⟩ | ⟨i, _ | _ | _⟩ := a
  · exact hboots
  · obtain ⟨p, q, hp, hstage, hafter, hbooted, hphase, hpartial⟩ := hboots
    have hs := hstaging.each i p hp
    have hthere : t.shared.opencore.isSome := by
      rcases hs.there (.inl hstage) with hthere | ⟨htest, -⟩
      · exact hthere
      · simp only [Launcher.afterStaging, htest] at hafter
        grind [Option.isNone_iff_eq_none, Option.isSome_iff_ne_none]
    obtain ⟨img, himg⟩ := Option.isSome_iff_exists.mp hthere
    exact hpartial ⟨img, himg, hs.whole (.inl hstage) img himg⟩
  · exact hboots
  · exact hboots

/-- An image with a built-in file of two blocks. -/
def twoBlocks : LaunchConfig := ⟨true, 2, true⟩

/-- An installed disk, and no `OpenCore.img` yet. -/
def installedDisk : DataDir := ⟨some ⟨256 * 2 ^ 30, 0⟩, none⟩

/-- `run`, without persistence. -/
def newRun : Launcher := ⟨.run, .start, 0, 0, false⟩

/-- A launcher that finds no file copies the built-in one, with no other launcher at work. -/
theorem boots_whole_session :
    ∃ t, Run (Processes.step (launching twoBlocks)) (Launches.ChecksWhole twoBlocks)
        (noLaunches installedDisk) [.start 1 newRun, .next 1 .proceed, .next 1 .proceed,
          .next 1 .proceed, .next 1 .proceed, .next 1 .proceed, .next 1 .proceed] t ∧
      t.procs 1 = some { newRun with stage := .staged } ∧
      ∀ a, ¬Launches.BootsPartial twoBlocks t a := by
  have hrun : ∃ t, Run (Processes.step (launching twoBlocks)) (Launches.ChecksWhole twoBlocks)
      (noLaunches installedDisk) [.start 1 newRun, .next 1 .proceed, .next 1 .proceed,
        .next 1 .proceed, .next 1 .proceed, .next 1 .proceed, .next 1 .proceed] t ∧
      t.procs 1 = some { newRun with stage := .staged } := by
    refine ⟨_, Run.cons trivial rfl <| Run.cons ?_ rfl <| Run.cons ?check rfl <|
      Run.cons ?_ rfl <| Run.cons ?_ rfl <| Run.cons ?_ rfl <| Run.cons ?_ rfl <| Run.nil _, rfl⟩
    case check =>
      intro p _ _
      refine ⟨fun img himg => (by cases himg), fun j m hj hm => ?_⟩
      simp only [Function.update_of_ne hj] at hm
      cases hm
    all_goals
      intro p hp hv
      obtain rfl := Option.some.inj hp
      cases hv
  obtain ⟨t, hrun, hp⟩ := hrun
  exact ⟨t, hrun, hp, boots_whole hrun⟩

/-- `run` comes while another launcher has created the file and copied none of its blocks. -/
theorem run_boots_partial :
    ∃ t, Run (Processes.step (launching twoBlocks)) Always (noLaunches installedDisk)
        [.start 1 newRun, .start 2 newRun, .next 1 .proceed, .next 1 .proceed, .next 1 .proceed,
          .next 2 .proceed, .next 2 .proceed] t ∧
      Launches.BootsPartial twoBlocks t (.next 2 .proceed) := by
  refine ⟨_, Run.cons trivial rfl <| Run.cons trivial rfl <| Run.cons trivial rfl <|
    Run.cons trivial rfl <| Run.cons trivial rfl <| Run.cons trivial rfl <|
    Run.cons trivial rfl <| Run.nil _, ?_⟩
  refine ⟨_, _, rfl, rfl, rfl, rfl, by decide, ?_⟩
  rintro ⟨img, himg, hwhole⟩
  obtain rfl := Option.some.inj himg
  exact absurd (hwhole 0 (by decide)) (by decide)

end DockerMacos
