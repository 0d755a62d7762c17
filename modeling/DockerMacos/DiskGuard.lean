import Mathlib.Algebra.Group.Nat.Defs
import DockerMacos.Launchers

/-!
# The Guard of the Disk

`install` refuses a `disk.img` larger than 1 MiB, and creates its own some commands and five
seconds later. What it has looked at need not be there any more: only an installation that
creates a large disk can change the size, so the guard holds as long as none does so between
the check and the creation of another.

## Interleaving

Any number of launchers work on the data directory, one command at a time (`Launches`). The
condition is on single steps of such a run (`CreatesAlone`): the launcher that creates a large
disk is the only one between check and creation. Two installations that pass the check one
after the other break it, and the second one wipes the disk of the first.

## Main definitions

* `Launcher.Guarded`: an installation that has passed its check finds the disk missing or small.
* `Wipes`: the turn creates a disk where a large one is.

## Main results

* `Launcher.Guarded.proceed`: what the next command of a launcher leaves of its guard.
* `Launches.guarded_step`: every turn keeps all launchers guarded.
* `install_never_wipes`: no run in which installations create their disks alone wipes a disk.
-/

namespace DockerMacos

/-- The disk is missing or small. -/
def DataDir.Fresh (d : DataDir) : Prop := ∀ disk, d.disk = some disk → disk.size ≤ mebibyte

/-- The installation has passed its check of the disk and has not created its own. -/
def Launcher.Pending (p : Launcher) : Prop := p.script = .install ∧ p.stage ≠ .start

instance (p : Launcher) : Decidable p.Pending := inferInstanceAs (Decidable (_ ∧ _))

/-- An installation between its check and its creation finds the disk missing or small. -/
structure Launcher.Guarded (d : DataDir) (p : Launcher) : Prop where
  waited : p.stage = .waited → p.script = .install
  fresh : p.Pending → d.Fresh

/-- The turn creates a disk where a large one is. -/
def Launches.Wipes (w : Launches) : LaunchTurn → Prop
  | .next i .proceed => ∃ p disk, w.procs i = some p ∧ p.stage = .waited ∧
      w.shared.disk = some disk ∧ mebibyte < disk.size
  | _ => False

/-- An installation that creates a large disk is the only one between check and creation. -/
def Launches.CreatesAlone (w : Launches) : LaunchTurn → Prop
  | .next i .proceed => ∀ p, w.procs i = some p → p.stage = .waited → mebibyte < p.diskSize →
      ∀ j m, j ≠ i → w.procs j = some m → ¬m.Pending
  | _ => True

section Steps

variable {cfg : LaunchConfig} {d d' : DataDir} {p : Launcher} {p' : Option Launcher}

/-- Only the creation replaces the disk. -/
theorem proceed_disk (h : proceed cfg d p = some (d', p')) :
    d'.disk = if p.stage = .waited then some ⟨p.diskSize, 0⟩ else d.disk := by
  unfold proceed at h
  split at h
  all_goals next hstage => rw [hstage]; grind

/-- A disk that is accepted by `install` is missing or small. -/
theorem Launcher.acceptsDisk_install (hscript : p.script = .install)
    (h : p.acceptsDisk d.disk = true) : d.Fresh := by
  intro disk hdisk
  simpa [acceptsDisk, hscript, hdisk] using h

/-- What a launcher is after its next command: before the creation it runs the script it did,
and it has waited only if this is `install`. -/
theorem proceed_launcher (h : proceed cfg d p = some (d', p')) (hstage : p.stage ≠ .waited) :
    ∀ q, p' = some q → q.script = p.script ∧ (q.stage = .waited → p.script = .install) ∧
      (p.stage = .start → p.acceptsDisk d.disk = true) := by
  unfold proceed at h
  split at h
  case h_6 hwaited => exact absurd hwaited hstage
  all_goals grind [Launcher.stageCheck, Launcher.afterStaging]

/-- The next command of a launcher leaves it guarded. -/
theorem Launcher.Guarded.proceed (hg : p.Guarded d) (h : proceed cfg d p = some (d', p')) :
    ∀ q, p' = some q → q.Guarded d' := by
  intro q hq
  have hdisk := proceed_disk h
  by_cases hwaited : p.stage = .waited
  · have hstart : q.stage = .start ∧ q.script = .run := by
      unfold DockerMacos.proceed at h
      grind
    exact ⟨fun hw => by simp [hstart.1] at hw, fun hpending => absurd hstart.1 hpending.2⟩
  · obtain ⟨hscript, hinstall, haccepts⟩ := proceed_launcher h hwaited q hq
    refine ⟨fun hw => hscript.trans (hinstall hw), fun hpending => ?_⟩
    have hfresh : d.Fresh := by
      by_cases hstart : p.stage = .start
      · exact acceptsDisk_install (hscript ▸ hpending.1) (haccepts hstart)
      · exact hg.fresh ⟨hscript ▸ hpending.1, hstart⟩
    rw [if_neg hwaited] at hdisk
    exact fun disk hd => hfresh disk (hdisk ▸ hd)

/-- The next command of a launcher leaves another one guarded, if it does not create a large
disk before that one has created its own. -/
theorem Launcher.Guarded.other {m : Launcher} (hm : m.Guarded d)
    (h : DockerMacos.proceed cfg d p = some (d', p'))
    (halone : p.stage = .waited → mebibyte < p.diskSize → ¬m.Pending) : m.Guarded d' := by
  refine ⟨hm.waited, fun hpending disk hdisk => ?_⟩
  rw [proceed_disk h] at hdisk
  split at hdisk
  · next hwaited =>
    obtain rfl := Option.some.inj hdisk
    exact Nat.not_lt.mp fun hlarge => halone hwaited hlarge hpending
  · exact hm.fresh hpending disk hdisk

end Steps

/-- **Step lemma.** Every turn keeps all launchers guarded. -/
theorem Launches.guarded_step {cfg : LaunchConfig} {w t : Launches} {a : LaunchTurn}
    (h : w.Each fun d p => p.Guarded d) (halone : w.CreatesAlone a)
    (hstep : w.step (launching cfg) a = some t) : t.Each fun d p => p.Guarded d := by
  rcases Processes.step_cases hstep with ⟨i, p, rfl, -, hinit, rfl⟩ |
    ⟨i, k, p, d', p', rfl, hp, hnext, rfl⟩
  · have hstart : p.stage = .start := by simpa [launching] using hinit
    refine Processes.Each.update (fun j m _ hm => h j m hm) fun q hq => ?_
    obtain rfl := Option.some.inj hq
    exact ⟨fun hw => by simp [hstart] at hw, fun hpending => absurd hstart hpending.2⟩
  · obtain _ | _ | _ := k
    · refine Processes.Each.update (fun j m hj hm => ?_) ((h i p hp).proceed hnext)
      exact (h j m hm).other hnext fun hw hlarge => halone p hp hw hlarge j m hj hm
    · -- a write leaves the size
      simp only [launching, Option.ite_none_right_eq_some, Option.some.injEq,
        Prod.mk.injEq] at hnext
      obtain ⟨-, rfl, rfl⟩ := hnext
      have hkeep : ∀ m : Launcher, m.Guarded w.shared → m.Guarded { w.shared with
          disk := w.shared.disk.map fun i => { i with writes := i.writes + 1 } } := by
        refine fun m hm => ⟨hm.waited, fun hpending disk hdisk => ?_⟩
        obtain ⟨disk₀, hdisk₀, rfl⟩ := Option.map_eq_some_iff.mp hdisk
        exact hm.fresh hpending disk₀ hdisk₀
      refine Processes.Each.update (fun j m _ hm => hkeep m (h j m hm)) fun q hq => ?_
      exact Option.some.inj hq ▸ hkeep p (h i p hp)
    · obtain ⟨rfl, rfl⟩ := Prod.mk.inj (Option.some.inj hnext)
      exact Processes.Each.update (fun j m _ hm => h j m hm) fun q hq => by cases hq

/-- **The installer's guard.** In a run in which every installation creates a large disk while
no other is between its check and its creation, no disk is wiped: in every state, whatever is
to come next. -/
theorem install_never_wipes {cfg : LaunchConfig} {d : DataDir} {as : List LaunchTurn}
    {t : Launches} (hrun : Run (Processes.step (launching cfg)) Launches.CreatesAlone
      (noLaunches d) as t) (a : LaunchTurn) : ¬Launches.Wipes t a := by
  have hguarded : t.Each fun d p => p.Guarded d :=
    hrun.invariant (I := fun w : Launches => w.Each fun d p => p.Guarded d)
      (fun _ _ _ hI hC hstep => Launches.guarded_step hI hC hstep) fun i p hp => by cases hp
  intro hwipes
  obtain ⟨i, p⟩ | ⟨i, _ | _ | _⟩ := a
  · exact hwipes
  · obtain ⟨p, disk, hp, hwaited, hdisk, hlarge⟩ := hwipes
    have hg := hguarded i p hp
    have hpending : p.Pending := ⟨hg.waited hwaited, by simp [hwaited]⟩
    exact absurd (hg.fresh hpending disk hdisk) (Nat.not_le.mpr hlarge)
  · exact hwipes
  · exact hwipes

/-- An image with everything in place, and a data directory without a disk. -/
def stagedConfig : LaunchConfig := ⟨true, 1, true⟩

def noDisk : DataDir := ⟨none, some .own⟩

/-- An installation with a disk of 256 GiB. -/
def newInstall : Launcher := ⟨.install, .start, 256 * 2 ^ 30, 0, true⟩

/-- One installation, and another after it that finds the disk. -/
def installTwice : List LaunchTurn :=
  [.start 1 newInstall, .next 1 .proceed, .next 1 .proceed, .next 1 .proceed, .next 1 .proceed,
    .start 2 newInstall, .next 2 .proceed]

/-- The second installation is refused, the first goes on. -/
theorem install_never_wipes_session :
    ∃ t, Run (Processes.step (launching stagedConfig)) Launches.CreatesAlone (noLaunches noDisk)
        installTwice t ∧ t.procs 2 = none ∧ ∀ a, ¬Launches.Wipes t a := by
  have hrun : ∃ t, Run (Processes.step (launching stagedConfig)) Launches.CreatesAlone
      (noLaunches noDisk) installTwice t ∧ t.procs 2 = none := by
    refine ⟨_, Run.cons trivial rfl <| Run.cons ?_ rfl <| Run.cons ?_ rfl <| Run.cons ?_ rfl <|
      Run.cons ?alone rfl <| Run.cons trivial rfl <| Run.cons ?_ rfl <| Run.nil _, rfl⟩
    case alone =>
      intro p _ _ _ j m hj hm
      simp only [Function.update_of_ne hj] at hm
      cases hm
    all_goals
      intro p hp hw
      obtain rfl := Option.some.inj hp
      cases hw
  obtain ⟨t, hrun, hgone⟩ := hrun
  exact ⟨t, hrun, hgone, install_never_wipes hrun⟩

/-- Two installations that pass the check one after the other, and the first creates the disk. -/
def installTogether : List LaunchTurn :=
  [.start 1 newInstall, .start 2 newInstall, .next 1 .proceed, .next 2 .proceed,
    .next 1 .proceed, .next 2 .proceed, .next 1 .proceed, .next 2 .proceed, .next 1 .proceed]

/-- The second installation wipes the disk of the first. -/
theorem second_install_wipes :
    ∃ t, Run (Processes.step (launching stagedConfig)) Always (noLaunches noDisk)
        installTogether t ∧ Launches.Wipes t (.next 2 .proceed) := by
  have hfold : (installTogether.foldlM (Processes.step (launching stagedConfig))
      (noLaunches noDisk)).map (fun t => (t.procs 2, t.shared.disk)) =
      some (some ⟨.install, .waited, 256 * 2 ^ 30, 0, true⟩, some ⟨256 * 2 ^ 30, 0⟩) := by
    decide +kernel
  obtain ⟨t, ht, hfields⟩ := Option.map_eq_some_iff.mp hfold
  obtain ⟨hp, hdisk⟩ := Prod.mk.inj hfields
  exact ⟨t, run_of_foldlM ht, _, _, hp, rfl, hdisk, by decide⟩

end DockerMacos
