import OnlineJudge.System

/-!
# Containment

Child A is attached to the execution cgroup before it is released, and a
termination that the supervisor reports has killed that cgroup: as long as the
host lets it use the cgroup. `setupCgroup`, `addProcessToCgroup` and `terminate`
take a refusal for success and go on without one.
-/

namespace OnlineJudge

variable {q : Request} {acts : List Act} {w w' : World} {x : Answer} {a : Act}

/-! ## Attachment -/

/-- The PID of Child A is written to `cgroup.procs` of the execution cgroup. -/
def Attaches (w : World) (a : Act) : Prop :=
  a = .supervisor .ok ∧ w.sup.pc = .writeProcs ∧ w.cgroup.present = true ∧ w.childA.alive = true

instance (w : World) (a : Act) : Decidable (Attaches w a) := by
  unfold Attaches; infer_instance

/-- `mkdir` of the cgroup, or opening or writing `cgroup.procs`, is refused with
`EPERM` or `EACCES`. -/
def AttachmentDenied (w : World) (a : Act) : Prop :=
  ∃ e, a = .supervisor (.fail e) ∧ permission e = true ∧
    (w.sup.pc = .mkdirCgroup ∨ w.sup.pc = .openProcs ∨ w.sup.pc = .writeProcs)

namespace ChildA

/-- Past the read of the sync pipe. -/
def pastSync : ChildA → Bool
  | unborn | awaitRelease | exited _ => false
  | _ => true

end ChildA

/-- Child A has got past its read of the sync pipe, or Child B was forked. -/
def PastSync (w : World) : Prop := w.childA.pastSync = true ∨ w.childB ≠ .unborn

/-- Before the supervisor's write of the release byte. -/
def SupervisorPc.beforeRelease : SupervisorPc → Bool
  | unborn | mkdirCgroup | mkdtemp | createPipes _ | fork | openProcs | writeProcs | killChild
  | waitKilledChild | send .prepare _ | removeCgroup .noProcess _ | exited _ => true
  | _ => false

attribute [grind =] ChildA.pastSync SupervisorPc.beforeRelease

/-- What holds while Child A is neither attached nor let off. -/
structure Held (w : World) : Prop where
  notReleased : w.released = false
  waiting : w.childA.pastSync = false
  noB : w.childB = .unborn
  before : w.sup.pc.beforeRelease = true
  path : w.sup.pc = .mkdtemp ∨ (∃ n, w.sup.pc = .createPipes n) ∨ w.sup.pc = .fork →
    w.sup.cgroup_path = true

theorem Held.supervisor (h : Held w) (hn : ¬ Attaches w (.supervisor x))
    (hd : ¬ AttachmentDenied w (.supervisor x)) (hm : Supervisor.Move w x w') : Held w' := by
  obtain ⟨hrel, hwait, hb, hbefore, hpath⟩ := h
  unfold Attaches at hn
  unfold AttachmentDenied at hd
  cases hm with
  | forked | attached | released | attachDenied | cgroupDenied =>
    constructor <;> grind -linarith
  | @killWritten caller hpc => simp [hpc, SupervisorPc.beforeRelease] at hbefore
  | @sent caller | @sendFailed _ caller | @removed caller | @removeDenied caller
  | @removeFailed caller | @removeBusy caller | @killDenied _ caller | @killFailed _ caller =>
    clear hn hd
    cases caller <;> refine ⟨hrel, hwait, hb, ?_, ?_⟩ <;> grind -linarith
  | waitedA site | waitAFailed site =>
    clear hn hd
    cases site <;> refine ⟨hrel, hwait, hb, ?_, ?_⟩ <;> grind -linarith
  | _ => clear hn hd; refine ⟨hrel, hwait, hb, ?_, ?_⟩ <;> grind -linarith

theorem Held.runner (h : Held w) (hm : Runner.Move w x w') : Held w' := by
  obtain ⟨hrel, hwait, hb, hbefore, hpath⟩ := h
  have hsup := hm.sup
  exact ⟨hm.released.trans hrel, by rw [hm.childA]; exact hwait, hm.childB.trans hb,
    by grind -linarith, by grind -linarith⟩

theorem Held.keep (h : Held w) (hn : ¬ Attaches w a) (hd : ¬ AttachmentDenied w a)
    (hm : Move w a w') : Held w' := by
  cases hm with
  | runner hm => exact h.runner hm
  | supervisor hm => exact h.supervisor hn hd hm
  | childA hm =>
    obtain ⟨hrel, hwait, hb, hbefore, hpath⟩ := h
    cases hm <;> constructor <;> grind -linarith
  | childB hm =>
    obtain ⟨hrel, hwait, hb, hbefore, hpath⟩ := h
    cases hm <;> constructor <;> grind -linarith
  | _ =>
    obtain ⟨hrel, hwait, hb, hbefore, hpath⟩ := h
    constructor <;> grind -linarith [ChildB.alive]

/-- Child A gets past the sync pipe only after its PID was written to
`cgroup.procs`, or after the host refused a call that the attachment needs. -/
theorem released_after_attachment (h : Runs q acts w) (hp : PastSync w) :
    Machine.Sometime step Attaches (.init q) acts ∨
      Machine.Sometime step AttachmentDenied (.init q) acts := by
  by_contra hno
  obtain ⟨hn, hd⟩ := not_or.1 hno
  have hheld : Held w := by
    refine Machine.run_invariant
      (P := fun s b => ¬ Attaches s b ∧ ¬ AttachmentDenied s b)
      (fun s b t hb hs ht => hs.keep hb.1 hb.2 (moves_step ht)) ?_
      ((Machine.along_not_of_not_sometime hn).and (Machine.along_not_of_not_sometime hd)) h
    exact ⟨rfl, rfl, rfl, rfl, by simp [World.init]⟩
  rcases hp with hp | hp
  · rw [hheld.waiting] at hp
    cases hp
  · exact hp hheld.noB

theorem released_after_attachment_boot :
    Machine.Sometime step Attaches (.init ⟨[], 1000, 0⟩) (bootSupervisor ++ [.childA .ok]) ∨
      Machine.Sometime step AttachmentDenied (.init ⟨[], 1000, 0⟩)
        (bootSupervisor ++ [.childA .ok]) := by
  obtain ⟨w, hw, hp⟩ : ∃ w, Runs ⟨[], 1000, 0⟩ (bootSupervisor ++ [Act.childA .ok]) w ∧
      w.childA.pastSync = true := exists_run (by decide +kernel)
  exact released_after_attachment hw (.inl hp)

/-- The supervisor may not create the cgroup, and releases Child A all the
same. -/
theorem released_unattached :
    ¬ ∀ (q : Request) (acts : List Act) (w : World), Runs q acts w → PastSync w →
      Machine.Sometime step Attaches (.init q) acts := by
  intro h
  obtain ⟨w, hw, hp⟩ : ∃ w, Runs ⟨[], 1000, 0⟩ (bootDenied ++ [Act.childA .ok]) w ∧
      w.childA.pastSync = true := exists_run (by decide +kernel)
  exact absurd (h _ _ w hw (.inl hp)) (by decide +kernel)

/-! ## Termination -/

/-- `cgroup.kill` is written, and every live child is in the cgroup. -/
def Kills (w : World) (a : Act) : Prop :=
  a = .supervisor .ok ∧ (w.sup.pc = .writeKill .loop ∨ w.sup.pc = .writeKill .failure) ∧
    w.cgroup.present = true ∧ w.cgroup.hasA = true ∧
    (w.childB.alive = true → w.cgroup.hasB = true)

instance (w : World) (a : Act) : Decidable (Kills w a) := by
  unfold Kills; infer_instance

/-- One of the calls that the supervisor makes on the cgroup is refused with
`EPERM` or `EACCES`, or there is no `cgroup.kill` to open. -/
def CgroupDenied (w : World) (a : Act) : Prop :=
  AttachmentDenied w a ∨
    (∃ caller e, a = .supervisor (.fail e) ∧ permission e = true ∧
      (w.sup.pc = .openKill caller ∨ w.sup.pc = .writeKill caller)) ∨
    ∃ caller, w.sup.pc = .openKill caller ∧
      (a = .supervisor (.fail ENOENT) ∨ a = .supervisor .ok ∧ w.cgroup.present = false)

namespace SupervisorPc

/-- `createExecutionProcess` is preparing the fork. -/
def forking : SupervisorPc → Bool
  | mkdtemp | createPipes _ | fork | openProcs | writeProcs => true
  | _ => false

/-- Child A was attached, and `terminate` may be called or is running. -/
def attached : SupervisorPc → Bool
  | release | send .ready _ | poll | readControl | openKill _ | writeKill _ | readStatus
  | waitFailed _ | waitNoHang => true
  | _ => false

end SupervisorPc

attribute [grind =] SupervisorPc.forking SupervisorPc.attached

/-- What holds while the host refuses nothing. -/
structure Caged (w : World) : Prop where
  path : w.sup.pc.forking = true ∨ w.sup.pc.attached = true → w.sup.cgroup_path = true
  attached : w.sup.pc.attached = true ∨ w.released = true ∨ w.childA.pastSync = true →
    w.cgroup.hasA = true
  hasB : w.childB.alive = true → w.cgroup.hasB = true

namespace Caged

theorem supervisor (h : Caged w) (hd : ¬ CgroupDenied w (.supervisor x))
    (hm : Supervisor.Move w x w') : Caged w' := by
  obtain ⟨hpath, hatt, hb⟩ := h
  cases hm with
  | cgroupDenied hpc he => exact absurd (.inl ⟨_, rfl, he, .inl hpc⟩) hd
  | attachDenied hpc he => exact absurd (.inl ⟨_, rfl, he, .inr hpc⟩) hd
  | @killDenied _ caller hx =>
    refine absurd ?_ hd
    rcases hx with ⟨hpc, ⟨rfl, hp⟩ | rfl⟩ | ⟨hpc, e, rfl, he⟩
    · exact .inr (.inr ⟨caller, hpc, .inr ⟨rfl, hp⟩⟩)
    · exact .inr (.inr ⟨caller, hpc, .inl rfl⟩)
    · exact .inr (.inl ⟨caller, e, rfl, he, hpc⟩)
  | gotControl hpc =>
    clear hd
    have hp := hpath (.inr (by simp [hpc, SupervisorPc.attached]))
    have ha := hatt (.inl (by simp [hpc, SupervisorPc.attached]))
    rcases w.sup.handleControl_cases
      (.ofBytes (w.toSup.pending.take headerSize)) with he | ⟨he, -⟩ | ⟨he, -⟩ | ⟨-, -, hno⟩
    · rw [he]; constructor <;> grind -linarith
    · rw [he]; constructor <;> grind -linarith
    · rw [he]; constructor <;> grind -linarith
    · simp [hp] at hno
  | @sent caller | @sendFailed _ caller | @removed caller | @removeDenied caller
  | @removeFailed caller | @removeBusy caller | @killWritten caller | @killFailed _ caller =>
    clear hd
    cases caller <;> constructor <;> grind -linarith
  | waitedA site | waitAFailed site => clear hd; cases site <;> constructor <;> grind -linarith
  | @gotStatus r => clear hd; cases r <;> constructor <;> grind -linarith
  | _ => clear hd; constructor <;> grind -linarith

theorem runner (h : Caged w) (hm : Runner.Move w x w') : Caged w' := by
  obtain ⟨hpath, hatt, hb⟩ := h
  have hcg := hm.hasA
  have hsup := hm.sup
  constructor <;> grind -linarith

theorem keep (h : Caged w) (hd : ¬ CgroupDenied w a) (hm : Move w a w') : Caged w' := by
  cases hm with
  | runner hm => exact h.runner hm
  | supervisor hm => exact h.supervisor hd hm
  | childA hm =>
    obtain ⟨hpath, hatt, hb⟩ := h
    cases hm <;> constructor <;> grind -linarith [ChildB.alive]
  | childB hm =>
    obtain ⟨hpath, hatt, hb⟩ := h
    cases hm <;> constructor <;> grind -linarith [ChildB.alive]
  | _ =>
    obtain ⟨hpath, hatt, hb⟩ := h
    constructor <;> grind -linarith [ChildB.alive]

theorem init (q : Request) : Caged (.init q) :=
  ⟨by simp [World.init, SupervisorPc.forking, SupervisorPc.attached],
    by simp [World.init, ChildA.pastSync, SupervisorPc.attached],
    by simp [World.init, ChildB.alive]⟩

end Caged

/-- The loop notes a termination only in the step that writes `cgroup.kill`. -/
theorem unrequested_supervisor (hc : Caged w) (h : w.sup.termination_requested = false)
    (hn : ¬ Kills w (.supervisor x)) (hd : ¬ CgroupDenied w (.supervisor x))
    (hm : Supervisor.Move w x w') : w'.sup.termination_requested = false := by
  obtain ⟨hpath, hatt, hb⟩ := hc
  cases hm with
  | @killWritten caller hpc hp =>
    have ha := hatt (.inl (by simp [hpc, SupervisorPc.attached]))
    exact absurd ⟨rfl, by cases caller <;> simp [hpc], hp, ha, hb⟩ hn
  | @killDenied _ caller hx =>
    refine absurd ?_ hd
    rcases hx with ⟨hpc, ⟨rfl, hp⟩ | rfl⟩ | ⟨hpc, e, rfl, he⟩
    · exact .inr (.inr ⟨caller, hpc, .inr ⟨rfl, hp⟩⟩)
    · exact .inr (.inr ⟨caller, hpc, .inl rfl⟩)
    · exact .inr (.inl ⟨caller, e, rfl, he, hpc⟩)
  | gotControl hpc =>
    have hp := hpath (.inr (by simp [hpc, SupervisorPc.attached]))
    clear hn hd
    rcases w.sup.handleControl_cases
      (.ofBytes (w.toSup.pending.take headerSize)) with he | ⟨he, -⟩ | ⟨he, -⟩ | ⟨-, -, hno⟩
    · rw [he]; grind -linarith
    · rw [he]; grind -linarith
    · rw [he]; grind -linarith
    · simp [hp] at hno
  | @sent caller | @sendFailed _ caller | @removed caller | @removeDenied caller
  | @removeFailed caller | @removeBusy caller | @killFailed _ caller =>
    clear hn hd
    cases caller <;> grind -linarith
  | waitedA site | waitAFailed site => clear hn hd; cases site <;> grind -linarith
  | @gotStatus r => clear hn hd; cases r <;> grind -linarith
  | _ => clear hn hd; grind -linarith

theorem unrequested_keep (hc : Caged w) (h : w.sup.termination_requested = false)
    (hn : ¬ Kills w a) (hd : ¬ CgroupDenied w a) (hm : Move w a w') :
    w'.sup.termination_requested = false := by
  cases hm with
  | supervisor hm => exact unrequested_supervisor hc h hn hd hm
  | _ => grind -linarith

/-- Once the supervisor counts a termination as done, the submission was sent a
kill; and wherever `terminate` is called or running it has the cgroup, with the
submission in it. The exception is a host that refuses one of the cgroup
calls. -/
theorem terminate_kills (h : Runs q acts w) :
    (w.sup.termination_requested = true →
      Machine.Sometime step Kills (.init q) acts ∨
        Machine.Sometime step CgroupDenied (.init q) acts) ∧
    (w.sup.pc.attached = true →
      w.sup.cgroup_path = true ∧ w.cgroup.hasA = true ∧
          (w.childB.alive = true → w.cgroup.hasB = true) ∨
        Machine.Sometime step CgroupDenied (.init q) acts) := by
  by_cases hd : Machine.Sometime step CgroupDenied (.init q) acts
  · exact ⟨fun _ => .inr hd, fun _ => .inr hd⟩
  have hno := Machine.along_not_of_not_sometime hd
  have hc : Caged w :=
    Machine.run_invariant (fun _ _ _ hb hs ht => hs.keep hb (moves_step ht)) (Caged.init q) hno h
  refine ⟨fun ht => .inl ?_, fun ha => .inl ⟨hc.path (.inr ha), hc.attached (.inl ha), hc.hasB⟩⟩
  by_contra hn
  have hun : Caged w ∧ w.sup.termination_requested = false := by
    refine Machine.run_invariant (P := fun s b => ¬ CgroupDenied s b ∧ ¬ Kills s b)
      (I := fun s => Caged s ∧ s.sup.termination_requested = false)
      (fun s b t hb hs ht => ?_) ⟨Caged.init q, rfl⟩
      (hno.and (Machine.along_not_of_not_sometime hn)) h
    exact ⟨hs.1.keep hb.1 (moves_step ht), unrequested_keep hs.1 hs.2 hb.2 hb.1 (moves_step ht)⟩
  rw [hun.2] at ht
  cases ht

/-- The deadline passes, and the supervisor takes the `Terminate`. -/
def takesTerminate : List Act :=
  [.tick 1000000000, .runner .ok, .runner .ok, .supervisor (.ready true false), .supervisor .ok]

theorem terminate_kills_boot :
    Machine.Sometime step Kills (.init ⟨[], 1000, 0⟩)
        (boot ++ takesTerminate ++ [.supervisor .ok, .supervisor .ok]) ∨
      Machine.Sometime step CgroupDenied (.init ⟨[], 1000, 0⟩)
        (boot ++ takesTerminate ++ [.supervisor .ok, .supervisor .ok]) := by
  obtain ⟨w, hw, ht⟩ : ∃ w, Runs ⟨[], 1000, 0⟩
      (boot ++ takesTerminate ++ [Act.supervisor .ok, .supervisor .ok]) w ∧
      w.sup.termination_requested = true := exists_run (by decide +kernel)
  exact (terminate_kills hw).1 ht

/-- Without a cgroup, `terminate` returns true and the submission runs on. -/
theorem terminate_without_kill :
    ¬ ∀ (q : Request) (acts : List Act) (w : World), Runs q acts w →
      w.sup.termination_requested = true →
      Machine.Sometime step (fun s b => Kills s b ∨
        b = .supervisor .ok ∧ (s.sup.pc = .killChild ∨ s.sup.pc = .failureKill))
        (.init q) acts := by
  intro h
  let acts : List Act := bootDenied ++ List.replicate 13 (Act.childA .ok) ++
    List.replicate 15 (Act.childB .ok) ++ takesTerminate
  obtain ⟨w, hw, ht, -⟩ : ∃ w, Runs ⟨[], 1000, 0⟩ acts w ∧
      w.sup.termination_requested = true ∧ w.childB = .running := exists_run (by decide +kernel)
  exact absurd (h _ _ w hw ht) (by decide +kernel)

end OnlineJudge
