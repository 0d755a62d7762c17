import DockerMacos.Launchers

/-!
# The Host Network

The containers of `install`, `run` and `test` share the network namespace of the host. In
macvtap mode a launch deletes the interface `macvtap0`, adds it anew and opens its device for
the VM (`scripts/lib/hw-args.sh`); `test` deletes it once more when it ends, in every mode
(`scripts/test.sh`). All containers use the one name.

## Interleaving

Any number of containers run, one command of one of them at a time. A container is a process
over the namespace: its next command is `proceed`, and it may end between any two commands,
which runs the handler of `test` unless it is killed.

## The condition

The interface is deleted by its name, whoever has added it. `DeletesAlone` asks of each deletion
that no other container has begun its set-up in macvtap mode and has not ended; a phase of
`test` in slirp mode that ends beside a VM in macvtap mode breaks it.

## Main results

* `HostNetwork.wired_step`: what a turn leaves of the interfaces that the VMs use.
* `running_vm_keeps_interface`: a VM keeps its interface as long as nothing is deleted beside
  another container in macvtap mode.
-/

namespace DockerMacos

/-- The network namespace of the host. -/
structure NetNamespace where
  /-- The index of the interface `macvtap0`. -/
  macvtap0 : Option ℕ
  /-- The index of the next interface. -/
  nextIndex : ℕ
  deriving DecidableEq

/-- How far a container has come with its network. -/
inductive NetStage
  | start
  /-- `macvtap0` has been deleted. -/
  | deleted
  /-- `macvtap0` has been added. -/
  | added
  /-- The device of an interface has been opened. -/
  | opened (index : ℕ)
  /-- The VM runs, on an interface in macvtap mode. -/
  | running (tap : Option ℕ)
  /-- The handler of `test` is at work; it has killed the VM. -/
  | cleanup
  deriving DecidableEq

/-- A container. -/
structure Container where
  script : Script
  phase : ℕ
  /-- `EXTERNAL_SUPERVISOR`. -/
  externalSupervisor : Bool
  /-- Whether the network mode comes out as macvtap. -/
  macvtap : Bool
  stage : NetStage
  deriving DecidableEq

/-- Whether `test` hands over to the VM with `exec`, which takes its handler away. -/
def Container.execs (p : Container) : Bool :=
  p.phase = 4 || p.phase = 9 || p.externalSupervisor

/-- Whether the handler `cleanup` is set. -/
def Container.traps (p : Container) : Bool :=
  match p.stage with
  | .running _ => p.script = .test && !p.execs
  | _ => p.script = .test

/-- A container that ends runs its handler first. -/
def Container.leave (p : Container) : Option Container :=
  if p.traps then some { p with stage := .cleanup } else none

/-- What may happen to a container. -/
inductive NetChoice
  /-- It executes its next command. -/
  | proceed
  /-- A command fails, the VM shuts down, or a signal arrives. -/
  | leave
  /-- It is killed. -/
  | kill
  deriving DecidableEq

/-- The next command of `mos_hw_netdev_args`, or of the handler. -/
def Container.proceed (ns : NetNamespace) (p : Container) :
    Option (NetNamespace × Option Container) :=
  match p.stage with
  | .start =>
    if p.macvtap then some ({ ns with macvtap0 := none }, some { p with stage := .deleted })
    else some (ns, some { p with stage := .running none })
  | .deleted =>
    match ns.macvtap0 with
    | none => some (⟨some ns.nextIndex, ns.nextIndex + 1⟩, some { p with stage := .added })
    | some _ => some (ns, p.leave)
  | .added =>
    match ns.macvtap0 with
    | some index => some (ns, some { p with stage := .opened index })
    | none => some (ns, p.leave)
  | .opened index => some (ns, some { p with stage := .running (some index) })
  | .running _ => none
  | .cleanup => some ({ ns with macvtap0 := none }, none)

/-- The containers as processes over the namespace. Phase 0 of `test` is in slirp mode. -/
def networking : Program NetNamespace Container NetChoice where
  initial p := p.stage = .start && !(p.script = .test && p.phase = 0 && p.macvtap)
  next ns p
    | .proceed => p.proceed ns
    | .leave => if p.stage = .cleanup then none else some (ns, p.leave)
    | .kill => some (ns, none)

/-- A moment of the containers. -/
abbrev HostNetwork := Processes NetNamespace Container

/-- A turn of the containers. -/
abbrev NetTurn := Turn Container NetChoice

namespace HostNetwork

/-- A VM runs whose interface is not there any more. -/
def Deprived (w : HostNetwork) : Prop :=
  ∃ i p index, w.procs i = some p ∧ p.stage = .running (some index) ∧
    w.shared.macvtap0 ≠ some index

end HostNetwork

namespace Container

/-- The container has begun its set-up in macvtap mode. -/
def UsesTap (p : Container) : Prop := p.macvtap = true ∧ p.stage ≠ .start

/-- The next command of the container deletes `macvtap0`. -/
def Deletes (p : Container) : Prop := p.macvtap = true ∧ p.stage = .start ∨ p.stage = .cleanup

/-- The container has opened the device of an interface. -/
def Opened (p : Container) (index : ℕ) : Prop :=
  p.stage = .opened index ∨ p.stage = .running (some index)

/-- What a container has opened is there, and a container in slirp mode has opened nothing. -/
structure Wired (ns : NetNamespace) (p : Container) : Prop where
  there : ∀ index, p.Opened index → ns.macvtap0 = some index
  slirp : p.macvtap = false → p.stage = .start ∨ p.stage = .running none ∨ p.stage = .cleanup

end Container

/-- `macvtap0` is deleted only while no other container has begun its set-up in macvtap mode
and has not ended. -/
def HostNetwork.DeletesAlone (w : HostNetwork) : NetTurn → Prop
  | .next i .proceed => ∀ p, w.procs i = some p → p.Deletes →
      ∀ j m, j ≠ i → w.procs j = some m → ¬m.UsesTap
  | _ => True

section Steps

variable {ns ns' : NetNamespace} {p m : Container} {p' : Option Container}

/-- The interface changes when it is deleted, and when it is added where none was. -/
theorem Container.proceed_macvtap0 (h : p.proceed ns = some (ns', p')) :
    ns'.macvtap0 = ns.macvtap0 ∨ ns.macvtap0 = none ∨ p.Deletes := by
  unfold Container.proceed at h
  split at h
  all_goals grind [Container.Deletes]

/-- A container that has opened a device uses the interface. -/
theorem Container.Wired.usesTap (h : m.Wired ns) {index : ℕ} (hopened : m.Opened index) :
    m.UsesTap := by
  have hstage : m.stage ≠ .start ∧ m.stage ≠ .running none ∧ m.stage ≠ .cleanup := by
    rcases hopened with hstage | hstage <;> simp [hstage]
  refine ⟨?_, hstage.1⟩
  by_contra hslirp
  rcases h.slirp (by simpa using hslirp) with hs | hs | hs
  · exact hstage.1 hs
  · exact hstage.2.1 hs
  · exact hstage.2.2 hs

/-- The next command of a container leaves another one its interface. -/
theorem Container.Wired.other (hm : m.Wired ns) (h : p.proceed ns = some (ns', p'))
    (halone : p.Deletes → ¬m.UsesTap) : m.Wired ns' := by
  refine ⟨fun index hopened => ?_, hm.slirp⟩
  have hthere := hm.there index hopened
  rcases proceed_macvtap0 h with hsame | hnone | hdeletes
  · exact hsame.trans hthere
  · rw [hnone] at hthere
    cases hthere
  · exact absurd (hm.usesTap hopened) (halone hdeletes)

/-- A container that leaves has opened nothing any more. -/
theorem Container.wired_leave {q : Container} (h : p.leave = some q) : q.Wired ns := by
  have hstage : q.stage = .cleanup := by
    unfold leave at h
    grind
  exact ⟨fun index hopened => by simp [Opened, hstage] at hopened, fun _ => .inr (.inr hstage)⟩

/-- The next command of a container opens only what is there. -/
theorem Container.Wired.proceed (hp : p.Wired ns) (h : p.proceed ns = some (ns', p')) :
    ∀ q, p' = some q → q.Wired ns' := by
  rintro q rfl
  unfold Container.proceed at h
  split at h
  case h_1 =>
    split at h
    · next htap =>
      obtain ⟨rfl, hq⟩ := Prod.mk.inj (Option.some.inj h)
      obtain rfl := Option.some.inj hq
      exact ⟨fun index hopened => by simp [Opened] at hopened, fun hslirp => by simp_all⟩
    · obtain ⟨rfl, hq⟩ := Prod.mk.inj (Option.some.inj h)
      obtain rfl := Option.some.inj hq
      exact ⟨fun index hopened => by simp [Opened] at hopened, fun _ => .inr (.inl rfl)⟩
  case h_2 hstage =>
    split at h
    · obtain ⟨rfl, hq⟩ := Prod.mk.inj (Option.some.inj h)
      obtain rfl := Option.some.inj hq
      refine ⟨fun index hopened => by simp [Opened] at hopened, fun hslirp => ?_⟩
      simpa [hstage] using hp.slirp hslirp
    · exact wired_leave (Prod.mk.inj (Option.some.inj h)).2
  case h_3 hstage =>
    split at h
    · next index hindex =>
      obtain ⟨rfl, hq⟩ := Prod.mk.inj (Option.some.inj h)
      obtain rfl := Option.some.inj hq
      refine ⟨fun k hopened => ?_, fun hslirp => by simpa [hstage] using hp.slirp hslirp⟩
      obtain rfl : index = k := by simpa [Opened] using hopened
      exact hindex
    · exact wired_leave (Prod.mk.inj (Option.some.inj h)).2
  case h_4 index hstage =>
    obtain ⟨rfl, hq⟩ := Prod.mk.inj (Option.some.inj h)
    obtain rfl := Option.some.inj hq
    refine ⟨fun k hopened => ?_, fun hslirp => by simpa [hstage] using hp.slirp hslirp⟩
    obtain rfl : index = k := by simpa [Opened] using hopened
    exact hp.there index (.inl hstage)
  case h_5 => cases h
  case h_6 => cases (Prod.mk.inj (Option.some.inj h)).2

end Steps

namespace HostNetwork

/-- **Step lemma.** Every turn that deletes the interface alone leaves all containers wired. -/
theorem wired_step {w t : HostNetwork} {a : NetTurn} (h : w.Each Container.Wired)
    (halone : DeletesAlone w a) (hstep : w.step networking a = some t) :
    t.Each Container.Wired := by
  rcases Processes.step_cases hstep with ⟨i, p, rfl, -, hinit, rfl⟩ |
    ⟨i, k, p, ns', p', rfl, hp, hnext, rfl⟩
  · have hstart : p.stage = .start := (Bool.and_eq_true_iff.mp hinit).1 |> of_decide_eq_true
    refine Processes.Each.update (fun j m _ hm => h j m hm) fun q hq => ?_
    obtain rfl := Option.some.inj hq
    exact ⟨fun index hopened => by simp [Container.Opened, hstart] at hopened,
      fun _ => .inl hstart⟩
  · obtain _ | _ | _ := k
    · refine Processes.Each.update (fun j m hj hm => ?_) ((h i p hp).proceed hnext)
      exact (h j m hm).other hnext fun hdeletes => halone p hp hdeletes j m hj hm
    · simp only [networking, Option.ite_none_left_eq_some, Option.some.injEq,
        Prod.mk.injEq] at hnext
      obtain ⟨-, rfl, hleave⟩ := hnext
      exact Processes.Each.update (fun j m _ hm => h j m hm) fun q hq =>
        Container.wired_leave (hleave.trans hq)
    · obtain ⟨rfl, rfl⟩ := Prod.mk.inj (Option.some.inj hnext)
      exact Processes.Each.update (fun j m _ hm => h j m hm) fun q hq => by cases hq

/-- A host on which no container runs. -/
def quiet (ns : NetNamespace) : HostNetwork := ⟨ns, fun _ => none⟩

/-- **Host network safety.** In a run in which `macvtap0` is deleted only while no other
container uses it in macvtap mode, every VM that runs has its interface. -/
theorem running_vm_keeps_interface {ns : NetNamespace} {as : List NetTurn} {t : HostNetwork}
    (hrun : Run (Processes.step networking) DeletesAlone (quiet ns) as t) : ¬Deprived t := by
  have hwired : t.Each Container.Wired :=
    hrun.invariant (I := fun w : HostNetwork => w.Each Container.Wired)
      (fun _ _ _ hI hC hstep => wired_step hI hC hstep) fun i p hp => (by cases hp)
  rintro ⟨i, p, index, hp, hstage, hgone⟩
  exact hgone ((hwired i p hp).there index (.inr hstage))

/-- Production in macvtap mode. -/
def production : Container := ⟨.run, 0, false, true, .start⟩

/-- The sanity phase, in slirp mode. -/
def phase0 : Container := ⟨.test, 0, false, false, .start⟩

/-- Phase 0 runs and ends before production is started. -/
theorem running_vm_keeps_interface_session :
    ∃ t, Run (Processes.step networking) DeletesAlone (quiet ⟨none, 1⟩)
        [.start 2 phase0, .next 2 .proceed, .next 2 .leave, .next 2 .proceed,
          .start 1 production, .next 1 .proceed, .next 1 .proceed, .next 1 .proceed,
          .next 1 .proceed] t ∧
      t.procs 1 = some { production with stage := .running (some 1) } ∧ ¬Deprived t := by
  have hrun : ∃ t, Run (Processes.step networking) DeletesAlone (quiet ⟨none, 1⟩)
      [.start 2 phase0, .next 2 .proceed, .next 2 .leave, .next 2 .proceed,
        .start 1 production, .next 1 .proceed, .next 1 .proceed, .next 1 .proceed,
        .next 1 .proceed] t ∧
      t.procs 1 = some { production with stage := .running (some 1) } := by
    refine ⟨_, Run.cons trivial rfl <| Run.cons ?_ rfl <| Run.cons trivial rfl <|
      Run.cons ?cleanup rfl <| Run.cons trivial rfl <| Run.cons ?launch rfl <|
      Run.cons ?_ rfl <| Run.cons ?_ rfl <| Run.cons ?_ rfl <| Run.nil _, rfl⟩
    case cleanup =>
      intro p _ _ j m hj hm
      simp only [Function.update_of_ne hj] at hm
      cases hm
    case launch =>
      intro p _ _ j m hj hm
      by_cases hj₂ : j = 2
      · rw [hj₂] at hm
        cases hm
      · simp only [Function.update_of_ne hj, Function.update_of_ne hj₂] at hm
        cases hm
    all_goals
      intro p hp hdeletes
      obtain rfl := Option.some.inj hp
      exact absurd hdeletes (by simp [Container.Deletes, production, phase0])
  obtain ⟨t, hrun, hp⟩ := hrun
  exact ⟨t, hrun, hp, running_vm_keeps_interface hrun⟩

/-- Phase 0 ends next to production, and deletes the interface of its VM. -/
theorem cleanup_deprives_production :
    ∃ t, Run (Processes.step networking) Always (quiet ⟨none, 1⟩)
        [.start 1 production, .next 1 .proceed, .next 1 .proceed, .next 1 .proceed,
          .next 1 .proceed, .start 2 phase0, .next 2 .proceed, .next 2 .leave,
          .next 2 .proceed] t ∧ Deprived t := by
  refine ⟨_, Run.cons trivial rfl <| Run.cons trivial rfl <| Run.cons trivial rfl <|
    Run.cons trivial rfl <| Run.cons trivial rfl <| Run.cons trivial rfl <|
    Run.cons trivial rfl <| Run.cons trivial rfl <| Run.cons trivial rfl <| Run.nil _, ?_⟩
  exact ⟨1, _, 1, rfl, rfl, by decide⟩

end HostNetwork

end DockerMacos
