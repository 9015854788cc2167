import OnlineJudge.Lineage

/-!
# A supervisor at work

As long as none of its calls fails, the supervisor goes from the fork of Child A
through its loop to one terminal message, with the cgroup in hand, and reads
nothing but whole records.
-/

namespace OnlineJudge

variable {q : Request} {acts : List Act} {w w' : World} {x : Answer} {a : Act}

/-- The call fails. -/
def Answer.fails : Answer → Bool
  | .fail _ => true
  | _ => false

/-- `read_status_pipe` finds the tag of a wait status and the end of file behind
it: Child A was killed between its two writes. -/
def truncated (w : World) (x : Answer) : Bool :=
  x = .ok && w.sup.pc = .readStatus && w.statusPipe.pending = [tag] && !w.statusWriter

namespace SupervisorPc

/-- Not on one of the failure paths. -/
def sound : SupervisorPc → Bool
  | killChild | waitKilledChild | send .prepare _ | removeCgroup .noProcess _ | openKill .failure
  | writeKill .failure | failureKill | failureWait => false
  | _ => true

/-- The execution cgroup is there to be used. -/
def holding : SupervisorPc → Bool
  | mkdtemp | createPipes _ | fork | openProcs | writeProcs | release | send .ready _ | poll
  | readControl | openKill _ | writeKill _ | readStatus | waitFailed _ | waitNoHang
  | removeCgroup _ _ => true
  | _ => false

/-- Child A is not waited for yet. -/
def beforeWait : SupervisorPc → Bool
  | unborn | mkdirCgroup | mkdtemp | createPipes _ | fork | openProcs | writeProcs | release
  | send .ready _ | poll | readControl | openKill _ | writeKill _ | readStatus | waitFailed _
  | waitNoHang => true
  | _ => false

end SupervisorPc

attribute [grind =] Answer.fails SupervisorPc.sound SupervisorPc.holding SupervisorPc.beforeWait

/-- What a supervisor whose calls do not fail keeps. -/
structure Manned (w : World) : Prop where
  sound : w.sup.pc.sound = true
  holding : w.sup.pc.holding = true → w.sup.cgroup_path = true ∧ w.cgroup.present = true
  early : w.sup.pc.phase = .before ∨ w.sup.pc.phase = .attaching → w.killed.childA = false
  attaching : w.sup.pc.phase = .attaching → w.childA = .awaitRelease
  unwaited : w.sup.pc.beforeWait = true → w.reaped.childA = false
  waited : w.sup.pc.beforeWait = false → ∃ s, w.childA = .exited s
  orders : w.toSup.pending = [] ∨ w.toSup.pending = Message.terminate.bytes
  order : w.sup.pc = .readControl → w.toSup.pending = Message.terminate.bytes
  unkilled : w.killed.supervisor = false
  unreaped : w.reaped.supervisor = false

theorem length_terminate : Message.terminate.bytes.length = headerSize := by
  simp [Message.bytes, Message.terminate]

theorem terminate_ne_nil : Message.terminate.bytes ≠ [] := by decide

/-- `Terminate` is taken for what it is. -/
theorem Supervisor.handleControl_terminate (s : Supervisor) (hp : s.cgroup_path = true) :
    s.handleControl (.ofBytes Message.terminate.bytes) =
      if s.termination_requested then s.afterControl else s.go (.openKill .loop) := by
  have ht : SandboxMessageHeader.ofBytes Message.terminate.bytes =
      ⟨SandboxMessageType.terminate.code, 0⟩ := by decide
  simp [handleControl, ht, hp]

/-- The outcomes of a call of a manned supervisor. -/
inductive Supervisor.Proper (w : World) (x : Answer) : World → Prop
  | madeCgroup (hpc : w.sup.pc = .mkdirCgroup) :
    Proper w x { w with
      cgroup := { w.cgroup with present := true }
      sup := { w.sup with cgroup_path := true, pc := .mkdtemp } }
  | prepared {next} (hpc : w.sup.pc = .mkdtemp ∨ ∃ n, w.sup.pc = .createPipes n)
    (hnext : next = .fork ∨ ∃ n, next = .createPipes n) :
    Proper w x { w with sup := w.sup.go next }
  | forked {pid} (hpc : w.sup.pc = .fork) :
    Proper w x { w with
      childA := .awaitRelease
      sup := { w.sup with host_pid := BitVec.ofNat 32 pid, pc := .openProcs } }
  | openedProcs (hpc : w.sup.pc = .openProcs) : Proper w x { w with sup := w.sup.go .writeProcs }
  | attached (hpc : w.sup.pc = .writeProcs) :
    Proper w x { w with cgroup := { w.cgroup with hasA := true }, sup := w.sup.go .release }
  | released (hpc : w.sup.pc = .release) :
    Proper w x { w with
      released := true
      sup := w.sup.go (.send .ready (Message.ready (readyPayload w.sup.host_pid)).writes) }
  | sent {caller chunk rest} (hpc : w.sup.pc = .send caller (chunk :: rest))
    (hcaller : caller ≠ .prepare) (hx : x = .ok) :
    Proper w x { w with
      toRunner := w.toRunner.put chunk
      sup := if rest = [] then w.sup.sendReturned true caller
        else w.sup.go (.send caller rest) }
  | looked {next status} (hpc : w.sup.pc = .poll) (hnext : next = .readControl ∧
      w.toSup.pending = Message.terminate.bytes ∨ next = .readStatus ∨ next = .waitNoHang) :
    Proper w x { w with sup := { w.sup with status_ready := status, pc := next } }
  | gotOrder {next} (hpc : w.sup.pc = .readControl)
    (hnext : next = .openKill .loop ∨ next = .readStatus ∨ next = .waitNoHang) :
    Proper w x { w with toSup := w.toSup.take headerSize, sup := w.sup.go next }
  | openedKill (hpc : w.sup.pc = .openKill .loop) :
    Proper w x { w with sup := w.sup.go (.writeKill .loop) }
  | killWritten {next} (hpc : w.sup.pc = .writeKill .loop)
    (hnext : next = .readStatus ∨ next = .waitNoHang) :
    Proper w x { w.killCgroup with sup := { w.sup with termination_requested := true, pc := next } }
  | gotWaitStatus {wait_status n} (hpc : w.sup.pc = .readStatus)
    (hr : nextRecord w.statusPipe.pending (!w.statusWriter) = some (.waitStatus wait_status, n)) :
    Proper w x { w with
      statusPipe := w.statusPipe.take n
      sup := w.sup.statusReturned (.waitStatus wait_status) }
  | gotPayload {failure n} (hpc : w.sup.pc = .readStatus)
    (hr : nextRecord w.statusPipe.pending (!w.statusWriter) = some (.payload failure, n)) :
    Proper w x { w with
      statusPipe := w.statusPipe.take n
      sup := w.sup.closeStatus.go (.waitFailed failure) }
  | gotEof {n} (hpc : w.sup.pc = .readStatus)
    (hr : nextRecord w.statusPipe.pending (!w.statusWriter) = some (.eof, n)) :
    Proper w x { w with
      statusPipe := w.statusPipe.take n
      sup := w.sup.closeStatus.go .waitNoHang }
  | reapedA {status usage raw_status} (hpc : w.sup.pc = .waitNoHang)
    (ha : w.childA = .exited raw_status) :
    Proper w x { w with
      reaped := { w.reaped with childA := true }
      sup := { w.sup.closeStatus with usage, status, pc := .removeCgroup .finished 5 } }
  | stillRunning (hpc : w.sup.pc = .waitNoHang) : Proper w x { w with sup := w.sup.go .poll }
  | waitedFailed {failure raw_status} (hpc : w.sup.pc = .waitFailed failure)
    (ha : w.childA = .exited raw_status) :
    Proper w x { w with
      reaped := { w.reaped with childA := true }
      sup := w.sup.go (.removeCgroup (.payload failure) 5) }
  | removedFailed {failure retries} (hpc : w.sup.pc = .removeCgroup (.payload failure) retries) :
    Proper w x { w with
      cgroup := { w.cgroup with present := false }
      sup := { w.sup with cgroup_path := false }.go
        (.send .setupFailed (Message.setupFailed failure).writes) }
  | removedFinished {p retries} (hpc : w.sup.pc = .removeCgroup .finished retries) :
    Proper w x { w with
      cgroup := { w.cgroup with present := false }
      sup := { w.sup with cgroup_path := false }.go
        (.send .terminated (Message.terminated p).writes) }

theorem holdsSync_of_attaching {s : Supervisor} (h : s.pc.phase = .attaching) :
    s.holdsSync = true := by
  unfold Supervisor.holdsSync
  cases hpc : s.pc with
  | send caller | openKill caller | writeKill caller | removeCgroup caller =>
    cases caller <;> simp [hpc, SupervisorPc.phase] at h
  | _ => simp_all [SupervisorPc.phase]

namespace Manned

/-- A supervisor at work has no other outcomes. -/
theorem proper (h : Manned w) (hopen : w.runner.control_open = true)
    (hx : x.fails = false) (hr : ∀ n, w.sup.pc = .readStatus →
      nextRecord w.statusPipe.pending (!w.statusWriter) ≠ some (.error, n))
    (hm : Supervisor.Move w x w') : Supervisor.Proper w x w' := by
  obtain ⟨hsound, hhold, hearly, hatt, hunw, hwaited, hords, hord, hunk, hunr⟩ := h
  have hhold' := hhold
  cases hm with
  | again => cases hx
  | madeCgroup hpc => exact .madeCgroup hpc
  | madeRoot hpc => exact .prepared (.inl hpc) (.inr ⟨0, rfl⟩)
  | @madePipe n hpc => exact .prepared (.inr ⟨n, hpc⟩) (by split <;> simp)
  | forked hpc =>
    have := (hhold (by simp [hpc, SupervisorPc.holding])).1
    simpa [this] using Supervisor.Proper.forked hpc
  | openedProcs hpc => exact .openedProcs hpc
  | attached hpc => exact .attached hpc
  | released hpc => exact .released hpc
  | @sent caller chunk rest hpc =>
    exact .sent hpc (by rintro rfl; simp [hpc, SupervisorPc.sound] at hsound) rfl
  | sendFailed hpc hx' =>
    rcases hx' with ⟨e, rfl⟩ | hx'
    · cases hx
    · simp [hopen] at hx'
  | @polled control status hpc hcontrol =>
    cases control with
    | true =>
      refine .looked hpc (.inl ⟨rfl, ?_⟩)
      rcases hcontrol rfl with hp | hc
      · exact hords.resolve_left hp
      · simp [hopen] at hc
    | false =>
      simp only [Bool.false_eq_true, if_false, Supervisor.afterControl]
      split
      · exact .looked hpc (.inr (.inl rfl))
      · exact .looked hpc (.inr (.inr rfl))
  | gotControl hpc =>
    have hp := (hhold (by simp [hpc, SupervisorPc.holding])).1
    have htake : w.toSup.pending.take headerSize = Message.terminate.bytes := by
      rw [hord hpc, List.take_of_length_le (Nat.le_of_eq length_terminate)]
    rw [htake, Supervisor.handleControl_terminate _ hp]
    unfold Supervisor.afterControl
    split
    · split
      · exact .gotOrder hpc (.inr (.inl rfl))
      · exact .gotOrder hpc (.inr (.inr rfl))
    · exact .gotOrder hpc (.inl rfl)
  | @openedKill caller hpc =>
    cases caller with
    | loop => exact .openedKill hpc
    | failure => simp [hpc, SupervisorPc.sound] at hsound
  | @killWritten caller hpc =>
    cases caller with
    | loop =>
      simp only [Supervisor.terminateReturned, if_true, Supervisor.afterControl]
      split
      · exact .killWritten hpc (.inl rfl)
      · exact .killWritten hpc (.inr rfl)
    | failure => simp [hpc, SupervisorPc.sound] at hsound
  | @gotStatus r n hpc hrec =>
    cases r with
    | payload failure => exact .gotPayload hpc hrec
    | eof => exact .gotEof hpc hrec
    | error => exact absurd hrec (hr n hpc)
    | waitStatus wait_status => exact .gotWaitStatus hpc hrec
  | reapedA hpc ha =>
    have hp := (hhold (by simp [hpc, SupervisorPc.holding])).1
    simpa [Supervisor.cleanupCgroup, Supervisor.closeStatus, Supervisor.go, hp] using
      Supervisor.Proper.reapedA hpc ha
  | stillRunning hpc => exact .stillRunning hpc
  | @waitedA _ _ _ _ site ha =>
    cases site with
    | killed hpc => simp [hpc, SupervisorPc.sound] at hsound
    | failure hpc => simp [hpc, SupervisorPc.sound] at hsound
    | failed hpc =>
      have hp := (hhold (by simp [hpc, SupervisorPc.holding])).1
      simpa [Supervisor.cleanupCgroup, hp] using Supervisor.Proper.waitedFailed hpc ha
  | @removed caller _ hpc =>
    cases caller with
    | noProcess => simp [hpc, SupervisorPc.sound] at hsound
    | payload => exact .removedFailed hpc
    | finished => exact .removedFinished hpc
  | waitAFailed site => clear hr; cases site <;> grind -linarith
  | @killedA | @killAFailed | @killFailed | @killDenied | startFailed | loopFailed =>
    clear hr
    grind -linarith
  | _ => cases hx

theorem supervisor (h : Manned w) (hm : Supervisor.Proper w x w') : Manned w' := by
  refine ⟨?_, ?_, ?_, ?_, ?_, ?_, ?_, ?_, ?_, ?_⟩
  · clear h
    cases hm with
    | @sent caller => cases caller <;> grind -linarith
    | _ => grind -linarith
  · have := h.holding
    clear h
    cases hm with
    | @sent caller => cases caller <;> grind -linarith
    | _ => grind -linarith
  · have := h.early
    clear h
    cases hm with
    | @sent caller => cases caller <;> grind -linarith
    | _ => grind -linarith
  · have := h.attaching
    clear h
    cases hm with
    | @sent caller => cases caller <;> grind -linarith
    | _ => grind -linarith
  · have := h.unwaited
    clear h
    cases hm with
    | @sent caller => cases caller <;> grind -linarith
    | _ => grind -linarith
  · have := h.waited
    clear h
    cases hm with
    | @sent caller => cases caller <;> grind -linarith
    | _ => grind -linarith
  · have hords := h.orders
    have hord := h.order
    clear h
    cases hm with
    | gotOrder hpc =>
      left
      rw [Channel.pending_take, hord hpc, List.drop_of_length_le (Nat.le_of_eq length_terminate)]
    | _ => exact hords
  · have := h.order
    clear h
    cases hm with
    | @sent caller => cases caller <;> grind -linarith
    | _ => grind -linarith
  · have := h.unkilled
    cases hm <;> exact this
  · have := h.unreaped
    cases hm <;> exact this

theorem childA (h : Manned w) (hx : w.childA = .awaitRelease → x.fails = false)
    (hl : Lineage w) (hm : ChildA.Move w x w') : Manned w' := by
  have hheld := hl.held
  have hsync := holdsSync_of_attaching (s := w.sup)
  obtain ⟨hsound, hhold, hearly, hatt, hunw, hwaited, hords, hord, hunk, hunr⟩ := h
  cases hm <;> constructor <;> grind -linarith

theorem childB (h : Manned w) (hm : ChildB.Move w x w') : Manned w' := by
  have hA := hm.childA
  obtain ⟨hsound, hhold, hearly, hatt, hunw, hwaited, hords, hord, hunk, hunr⟩ := h
  constructor <;> grind -linarith

end Manned

end OnlineJudge
