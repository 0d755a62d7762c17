import DockerMacos.Processes

/-!
# The Launchers

`install`, `run` and `test` (`scripts/`) start a VM on the files of one data directory. They
run in containers of their own, any number of them at a time.

## Stages

A launcher goes from stage to stage; a command that touches the data directory is one step, and
the copy of `OpenCore.img` is one step for every block. A launcher may be stopped at any time;
a command that fails stops its launcher as well. `install` hands over to `run` once it has
created the disk.

## The data directory

Of a disk it matters how large it is and how often a VM has written to it; of `OpenCore.img`,
whether it is the operator's own, and else which blocks of the built-in image have been copied.
What is the same for all launchers, such as the built-in image, is a `LaunchConfig`.

## Main definitions

* `DataDir`: `disk.img` and `OpenCore.img`.
* `proceed`: the next command of a launcher.
* `launching`: the launchers as processes over the data directory.
-/

namespace DockerMacos

/-- `disk.img`. -/
structure DiskImage where
  /-- Its size in bytes, as `stat` gives it. -/
  size : ℕ
  /-- How often a VM has written to it since it was created. -/
  writes : ℕ
  deriving DecidableEq

/-- `OpenCore.img`: the operator's own file, or what has been copied of the built-in image. -/
inductive OpenCoreImage
  | own
  /-- The blocks that hold what the built-in image does. -/
  | copy (written : ℕ → Bool)

/-- What the launchers use of the data directory. -/
structure DataDir where
  disk : Option DiskImage
  opencore : Option OpenCoreImage

/-- What is the same for all launchers. -/
structure LaunchConfig where
  /-- Whether the image holds a built-in `OpenCore.img`. -/
  builtin : Bool
  /-- The blocks of the built-in `OpenCore.img`. -/
  blocks : ℕ
  /-- Whether there is a `recovery.img`. -/
  recovery : Bool

/-- The scripts. -/
inductive Script
  | install
  | run
  | test
  deriving DecidableEq

/-- How far a launcher has come. -/
inductive Stage
  /-- Nothing has been looked at. -/
  | start
  /-- The check of `disk.img` has been passed. -/
  | validated
  /-- `OpenCore.img` was not there, and the copy is to come. -/
  | missing
  /-- So many blocks have been copied. -/
  | copying (k : ℕ)
  /-- The staging check is behind. -/
  | staged
  /-- The five seconds are over. -/
  | waited
  /-- The VM runs. -/
  | booted
  deriving DecidableEq

/-- A launcher. -/
structure Launcher where
  script : Script
  stage : Stage
  /-- `DISK_SIZE`, of `install`. -/
  diskSize : ℕ
  /-- The phase, of `test`. -/
  phase : ℕ
  /-- Whether the VM writes to `disk.img`. -/
  persist : Bool
  deriving DecidableEq

/-- The size up to which `install` treats a disk as fresh, and from which `run` takes it. -/
def mebibyte : ℕ := 1048576

/-- Whether a launcher accepts the disk that it finds. -/
def Launcher.acceptsDisk (p : Launcher) (disk : Option DiskImage) : Bool :=
  match p.script, disk with
  | .install, none => true
  | .install, some d => d.size ≤ mebibyte
  | .run, none => false
  | .run, some d => mebibyte ≤ d.size
  | .test, _ => true

/-- The file after block `k` has been written at its place. -/
def OpenCoreImage.writeBlock (k : ℕ) : OpenCoreImage → OpenCoreImage
  | .own => .copy fun j => j = k
  | .copy written => .copy (Function.update written k true)

/-- What the staging check leads to. -/
def Launcher.stageCheck (cfg : LaunchConfig) (d : DataDir) (p : Launcher) : Option Launcher :=
  if p.script = .install ∧ cfg.recovery = false then none
  else if d.opencore.isSome then some { p with stage := .staged }
  else if cfg.builtin then some { p with stage := .missing }
  else if p.script = .test then some { p with stage := .staged }
  else none

/-- What follows the staging: `install` waits, `run` boots, and `test` boots if the files that
its phase needs are there. -/
def Launcher.afterStaging (d : DataDir) (p : Launcher) : Option Launcher :=
  match p.script with
  | .install => some { p with stage := .waited }
  | .run => some { p with stage := .booted }
  | .test =>
    if 1 ≤ p.phase ∧ (d.disk = none ∨ d.opencore.isNone) then none
    else some { p with stage := .booted }

/-- The next command of a launcher. `install` hands over to `run` once it has created the disk,
whatever was there. -/
def proceed (cfg : LaunchConfig) (d : DataDir) (p : Launcher) :
    Option (DataDir × Option Launcher) :=
  match p.stage with
  | .start => some (d, if p.acceptsDisk d.disk then some { p with stage := .validated } else none)
  | .validated => some (d, p.stageCheck cfg d)
  | .missing =>
    some ({ d with opencore := some (.copy fun _ => false) }, some { p with stage := .copying 0 })
  | .copying k =>
    if k < cfg.blocks then
      some ({ d with opencore := d.opencore.map (.writeBlock k) },
        some { p with stage := .copying (k + 1) })
    else some (d, some { p with stage := .staged })
  | .staged => some (d, p.afterStaging d)
  | .waited =>
    some ({ d with disk := some ⟨p.diskSize, 0⟩ },
      some { p with script := .run, stage := .start, persist := true })
  | .booted => none

/-- What may happen to a launcher. -/
inductive LaunchChoice
  /-- It executes its next command. -/
  | proceed
  /-- Its VM writes to `disk.img`. -/
  | write
  /-- It is stopped, or its VM shuts down. -/
  | stop
  deriving DecidableEq

/-- The launchers as processes over the data directory. -/
def launching (cfg : LaunchConfig) : Program DataDir Launcher LaunchChoice where
  initial p := p.stage = .start
  next d p
    | .proceed => proceed cfg d p
    | .write =>
      if p.stage = .booted ∧ p.persist ∧ ¬(p.script = .test ∧ p.phase = 0) then
        some ({ d with disk := d.disk.map fun i => { i with writes := i.writes + 1 } }, some p)
      else none
    | .stop => some (d, none)

/-- A moment of the launchers. -/
abbrev Launches := Processes DataDir Launcher

/-- A turn of the launchers. -/
abbrev LaunchTurn := Turn Launcher LaunchChoice

/-- The data directory before anything has been launched. -/
def noLaunches (d : DataDir) : Launches := ⟨d, fun _ => none⟩

end DockerMacos
