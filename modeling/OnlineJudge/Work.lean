import OnlineJudge.Lib.Potential
import OnlineJudge.Lineage

/-!
# How much work an execution is

Each program counter says how many calls are left at most before the next `poll`,
or before the end where no `poll` is left. Every call that is not interrupted
lowers the number, and only a `poll` raises it again. So nobody spins:
between two polls there are only so many calls, whatever the kernel answers, and
the two cleanup routines end as well.
-/

namespace OnlineJudge

/-- The call was interrupted by a signal handler. -/
def Answer.interrupted : Answer → Bool
  | .fail e => e = EINTR
  | _ => false

attribute [grind =] Answer.interrupted

/-! ## Calls left -/

namespace ChildB

/-- Its setup calls, a report of two writes at most, and the submission. -/
def remaining : ChildB → Nat
  | unborn => 18
  | setup _ rest => rest.length + 4
  | report writes => writes.length + 1
  | running => 1
  | exited _ => 0

end ChildB

namespace ChildA

/-- After the fork there are the wait, the two writes of the wait status, the
close and the exit. -/
def remaining : ChildA → Nat
  | unborn | awaitRelease => 18
  | setup _ rest => rest.length + 7
  | report _ writes => writes.length + 1
  | fork => 6
  | waitB => 5
  | forward _ writes => writes.length + 2
  | closeStatus _ => 2
  | leave _ => 1
  | exited _ => 0

end ChildA

namespace SupervisorPc

def remaining : SupervisorPc → Nat
  | unborn | mkdirCgroup => 22
  | mkdtemp => 21
  | createPipes n => 17 + (3 - n)
  | fork => 16
  | openProcs => 15
  | writeProcs => 14
  | release => 13
  | killChild => 11
  | waitKilledChild => 10
  | send .ready writes => writes.length + 10
  | send .prepare writes | send .setupFailed writes | send .terminated writes =>
    writes.length + 1
  | readControl => 15
  | openKill .loop => 14
  | writeKill .loop => 13
  | readStatus => 12
  | waitNoHang => 11
  | poll | waitFailed _ => 10
  | removeCgroup _ retries => retries + 4
  | openKill .failure => 4
  | writeKill .failure => 3
  | failureKill => 2
  | failureWait => 1
  | exited _ => 0

end SupervisorPc

namespace RunnerPc

/-- `cleanup_after_failure` looks a hundred times whether the supervisor has
ended, and a hundred and one times whether the cgroup is empty. -/
def remaining : RunnerPc → Nat
  | setup n => 216 + (5 - n)
  | receiveHeader => 215
  | receivePayload _ => 214
  | readHeader => 219
  | readSetupFailed | readTerminated => 218
  | finishSetupFailed | finishTerminated => 217
  | writeStdin => 216
  | readStdout => 215
  | readStderr => 214
  | loop => 213
  | sendTerminate => 212
  | poll _ | reapSupervisor => 211
  | cleanupTerminate _ => 210
  | cleanupNoHang _ tries => 109 + (100 - tries)
  | killSupervisor (.beforeReady _) => 110
  | waitSupervisor (.beforeReady _) => 109
  | openKill _ => 108
  | writeKill _ => 107
  | checkEmpty _ tries => 6 + (100 - tries)
  | lastCheck _ => 5
  | killSupervisor (.afterFailure _) => 4
  | waitSupervisor (.afterFailure _) => 3
  | accessCgroup _ => 2
  | removeCgroup _ | reapFailed => 1
  | returned => 0

end RunnerPc

attribute [grind =] ChildB.remaining ChildA.remaining SupervisorPc.remaining RunnerPc.remaining

variable {w w' : World} {x : Answer} {a : Act}

/-! ## What one call costs -/

theorem Message.length_writes (m : Message) : m.writes.length ≤ 2 := by
  unfold writes
  split <;> simp

theorem FailureReport.length_writes (stage : SandboxSetupStage) (e : Errno)
    (report : FailureReport) : (report.writes stage e).length ≤ 2 := by
  cases report with
  | failSetup => exact Message.length_writes _
  | reportFailure => exact Nat.le_succ 1

theorem ChildB.remaining_next (rest : List SetupCall) :
    (next rest).remaining ≤ rest.length + 3 := by
  cases rest <;> simp [next, remaining]

theorem ChildA.remaining_next (rest : List SetupCall) :
    (next rest).remaining ≤ rest.length + 6 := by
  cases rest <;> simp [next, remaining]

/-- A call of Child B before the submission. -/
theorem ChildB.spends (h : ChildB.step w x = some w') :
    x.interrupted = true ∧ w' = w ∨ w'.childB.remaining < w.childB.remaining := by
  cases ChildB.moves h with
  | again => exact .inl ⟨rfl, rfl⟩
  | @setupDone _ rest hpc =>
    exact .inr (by rw [hpc]; exact Nat.lt_succ_of_le (remaining_next rest))
  | @setupFailed call rest e hpc =>
    have := call.report.length_writes call.stage e
    exact .inr (by simp only [hpc, remaining]; omega)
  | @told chunk rest hpc =>
    refine .inr ?_
    by_cases hrest : rest = []
    · simp [hpc, hrest, remaining]
    · simp [hpc, hrest, remaining]
  | reportLost hpc => exact .inr (by simp [hpc, remaining])

theorem ChildA.spends (h : ChildA.step w x = some w') :
    x.interrupted = true ∧ w' = w ∨ w'.childA.remaining < w.childA.remaining := by
  cases ChildA.moves h with
  | again => exact .inl ⟨rfl, rfl⟩
  | released hpc => exact .inr (by simp [hpc, remaining, childASetup, next])
  | abandoned hpc => exact .inr (by simp [hpc, remaining])
  | @setupDone _ rest hpc =>
    exact .inr (by rw [hpc]; exact Nat.lt_succ_of_le (remaining_next rest))
  | @setupFailed call rest e hpc =>
    have := call.report.length_writes call.stage e
    exact .inr (by simp only [hpc, remaining]; omega)
  | @toldControl chunk rest hpc | @toldStatus chunk rest hpc =>
    refine .inr ?_
    by_cases hrest : rest = []
    · simp [hpc, hrest, remaining]
    · simp [hpc, hrest, remaining]
  | @forwarded _ chunk rest hpc =>
    refine .inr ?_
    by_cases hrest : rest = []
    · simp [hpc, hrest, remaining]
    · simp [hpc, hrest, remaining]
  | reportLost hpc | forked hpc | waited hpc | forwardLost hpc | closedStatus hpc | left hpc =>
    exact .inr (by simp [hpc, remaining])
  | @forkFailed e hpc =>
    have := FailureReport.failSetup.length_writes .namespace e
    exact .inr (by simp only [hpc, remaining]; omega)

namespace Supervisor

variable (s : Supervisor)

theorem remaining_fail (b : Bool) : (s.fail b).pc.remaining ≤ 4 := by grind -linarith

theorem remaining_afterControl : s.afterControl.pc.remaining ≤ 12 := by grind -linarith

theorem remaining_cleanupReturned (ok : Bool) (caller : CleanupCaller) :
    (s.cleanupReturned ok caller).pc.remaining ≤ 3 := by
  cases caller with
  | noProcess => exact Nat.zero_le 3
  | payload failure =>
    have := (Message.setupFailed failure).length_writes
    cases ok <;> grind -linarith
  | finished =>
    cases ok with
    | false => exact Nat.zero_le 3
    | true => exact Nat.succ_le_succ (Message.length_writes _)

theorem remaining_cleanupCgroup (caller : CleanupCaller) :
    (s.cleanupCgroup caller).pc.remaining ≤ 9 := by
  have := s.remaining_cleanupReturned true caller
  grind -linarith

theorem remaining_terminateReturned (ok : Bool) (caller : TerminateCaller) :
    (s.terminateReturned ok caller).pc.remaining < (SupervisorPc.writeKill caller).remaining := by
  cases caller with
  | loop =>
    have hgo := { s with termination_requested := true }.remaining_afterControl
    have hfail := s.remaining_fail true
    cases ok <;> grind -linarith
  | failure => exact Nat.lt_succ_self 2

theorem remaining_statusReturned (r : StatusPipeReadResult) :
    (s.statusReturned r).pc.remaining ≤ 11 := by
  have := s.remaining_fail s.termination_requested
  cases r <;> grind -linarith

theorem remaining_handleControl (header : SandboxMessageHeader) :
    (s.handleControl header).pc.remaining ≤ 14 := by
  have hfail := s.remaining_fail s.termination_requested
  have hafter := s.remaining_afterControl
  have hloop : (s.terminateReturned true .loop).pc.remaining < 13 :=
    s.remaining_terminateReturned true .loop
  rcases s.handleControl_cases header with h | ⟨h, -⟩ | ⟨h, -⟩ | ⟨h, -⟩ <;> rw [h]
  · omega
  · omega
  · exact Nat.le_refl 14
  · omega

theorem remaining_sendReturned (ok : Bool) (caller : SendCaller) :
    (s.sendReturned ok caller).pc.remaining < (SupervisorPc.send caller []).remaining + 1 := by
  have := s.remaining_fail s.termination_requested
  cases caller <;> grind -linarith

theorem remaining_failSetup (stage : SandboxSetupStage) (e : Errno) :
    (s.failSetup stage e).pc.remaining ≤ 3 :=
  Nat.succ_le_succ (FailureReport.failSetup.length_writes stage e)

end Supervisor

theorem SupervisorPc.remaining_send (caller : SendCaller) (chunk : List Byte)
    (rest : List (List Byte)) :
    (send caller rest).remaining < (send caller (chunk :: rest)).remaining ∧
      (send caller []).remaining < (send caller (chunk :: rest)).remaining := by
  cases caller <;> simp [remaining]

theorem SupervisorPc.writeKill_lt_openKill (caller : TerminateCaller) :
    (writeKill caller).remaining < (openKill caller).remaining := by
  cases caller with
  | loop => exact Nat.lt_succ_self 13
  | failure => exact Nat.lt_succ_self 3

/-- The `rmdir` is only tried again while tries are left. -/
theorem Supervisor.retries_of_removeBusy {caller : CleanupCaller} {retries : Nat}
    (hpc : w.sup.pc = .removeCgroup caller retries)
    (h : Supervisor.step w (.fail EBUSY) =
      some { w with sup := w.sup.go (.removeCgroup caller (retries - 1)) }) : 1 < retries := by
  by_contra hle
  have hstep : Supervisor.step w (.fail EBUSY) =
      some { w with sup := w.sup.cleanupReturned false caller } := by
    simp [step, hpc, removeCgroup, show retries ≤ 1 by omega, show EBUSY ≠ ENOENT by decide]
  rw [hstep, Option.some.injEq] at h
  have hsup : w.sup.cleanupReturned false caller = w.sup.go (.removeCgroup caller (retries - 1)) :=
    congrArg World.sup h
  have hback := w.sup.remaining_cleanupReturned false caller
  rw [hsup] at hback
  exact absurd hback (by simp [go, SupervisorPc.remaining])

theorem Supervisor.spends (h : Supervisor.step w x = some w') :
    x.interrupted = true ∧ w' = w ∨ w'.sup.pc.remaining < w.sup.pc.remaining ∨
      w.sup.pc = .poll ∧ w'.sup.pc.remaining ≤ 15 := by
  have pay {pc : SupervisorPc} (hpc : w.sup.pc = pc) (hlt : w'.sup.pc.remaining < pc.remaining) :
      x.interrupted = true ∧ w' = w ∨ w'.sup.pc.remaining < w.sup.pc.remaining ∨
        w.sup.pc = .poll ∧ w'.sup.pc.remaining ≤ 15 := .inr (.inl (hpc ▸ hlt))
  cases Supervisor.moves h with
  | again => exact .inl ⟨rfl, rfl⟩
  | madeCgroup hpc | cgroupDenied hpc => exact pay hpc (Nat.lt_succ_self 21)
  | cgroupFailed hpc => exact pay hpc (Nat.lt_of_le_of_lt (remaining_failSetup _ _ _) (by decide))
  | madeRoot hpc => exact pay hpc (Nat.lt_succ_self 20)
  | rootFailed hpc => exact pay hpc (Nat.lt_of_le_of_lt (remaining_failSetup _ _ _) (by decide))
  | @madePipe n hpc =>
    refine pay hpc ?_
    by_cases hn : n < 3
    · simp only [hn, if_true, go, SupervisorPc.remaining]
      omega
    · simp only [hn, if_false, go, SupervisorPc.remaining]
      omega
  | noProcess hpc =>
    have hle := w.sup.remaining_cleanupCgroup .noProcess
    obtain ⟨n, hpc⟩ | hpc := hpc
    · exact pay hpc (Nat.lt_of_le_of_lt hle (by simp only [SupervisorPc.remaining]; omega))
    · exact pay hpc (Nat.lt_of_le_of_lt hle (by decide))
  | forked hpc =>
    refine pay hpc ?_
    cases w.sup.cgroup_path <;> simp [SupervisorPc.remaining]
  | openedProcs hpc => exact pay hpc (Nat.lt_succ_self 14)
  | attached hpc => exact pay hpc (Nat.lt_succ_self 13)
  | attachDenied hpc =>
    obtain hpc | hpc := hpc
    · exact pay hpc (show 13 < 15 by decide)
    · exact pay hpc (Nat.lt_succ_self 13)
  | released hpc =>
    have := (Message.ready (readyPayload w.sup.host_pid)).length_writes
    exact pay hpc (by simp only [go, SupervisorPc.remaining]; omega)
  | startFailed hx =>
    obtain ⟨-, hpc | hpc | hpc⟩ | ⟨-, ⟨hpc, -⟩ | ⟨hpc, -⟩ | ⟨hpc, -⟩⟩ := hx <;>
      exact pay hpc (by simp [go, SupervisorPc.remaining])
  | killedA hpc | killAFailed hpc =>
    obtain ⟨hpc, rfl⟩ | ⟨hpc, rfl⟩ := hpc
    · exact pay hpc (Nat.lt_succ_self 10)
    · exact pay hpc (Nat.lt_succ_self 1)
  | @sent caller chunk rest hpc =>
    obtain ⟨hrest, hnil⟩ := SupervisorPc.remaining_send caller chunk rest
    refine pay hpc ?_
    split
    · exact Nat.lt_of_le_of_lt (Nat.le_of_lt_succ (w.sup.remaining_sendReturned true caller)) hnil
    · exact hrest
  | @sendFailed _ caller chunk rest hpc =>
    obtain ⟨-, hnil⟩ := SupervisorPc.remaining_send caller chunk rest
    exact pay hpc
      (Nat.lt_of_le_of_lt (Nat.le_of_lt_succ (w.sup.remaining_sendReturned false caller)) hnil)
  | @polled control status hpc =>
    refine .inr (.inr ⟨hpc, ?_⟩)
    cases control with
    | true => exact Nat.le_refl 15
    | false => exact Nat.le_trans (remaining_afterControl _) (by decide)
  | gotControl hpc => exact pay hpc (Nat.lt_succ_of_le (remaining_handleControl _ _))
  | @openedKill caller hpc =>
    refine pay hpc ?_
    cases caller with
    | loop => exact Nat.lt_succ_self 13
    | failure => exact Nat.lt_succ_self 3
  | killWritten hpc => exact pay hpc (remaining_terminateReturned _ _ _)
  | @killDenied _ caller hx =>
    have hlt := remaining_terminateReturned { w.sup with cgroup_path := false } true caller
    have hnext := SupervisorPc.writeKill_lt_openKill caller
    obtain ⟨hpc, -⟩ | ⟨hpc | hpc, -⟩ := hx
    · exact pay hpc (Nat.lt_trans hlt hnext)
    · exact pay hpc (Nat.lt_trans hlt hnext)
    · exact pay hpc hlt
  | @killFailed _ caller hx =>
    have hlt := w.sup.remaining_terminateReturned false caller
    have hnext := SupervisorPc.writeKill_lt_openKill caller
    obtain ⟨-, hpc | hpc⟩ | ⟨-, hpc, -⟩ := hx
    · exact pay hpc (Nat.lt_trans hlt hnext)
    · exact pay hpc hlt
    · exact pay hpc hlt
  | gotStatus hpc | statusFailed hpc =>
    exact pay hpc (Nat.lt_succ_of_le (remaining_statusReturned _ _))
  | reapedA hpc =>
    exact pay hpc (Nat.lt_of_le_of_lt (remaining_cleanupCgroup _ _) (by decide))
  | stillRunning hpc => exact pay hpc (Nat.lt_succ_self 10)
  | loopFailed hx =>
    have hle := w.sup.remaining_fail w.sup.termination_requested
    have hpc : w.sup.pc = .poll ∨ w.sup.pc = .readControl ∨ w.sup.pc = .waitNoHang := by
      obtain ⟨-, hpc⟩ | ⟨hpc, -⟩ | ⟨hpc, -⟩ := hx
      · exact hpc
      · exact .inr (.inl hpc)
      · exact .inr (.inr hpc)
    obtain hpc | hpc | hpc := hpc <;> exact pay hpc (Nat.lt_of_le_of_lt hle (by decide))
  | waitedA site =>
    cases site with
    | killed hpc | failed hpc => exact pay hpc (Nat.lt_succ_of_le (remaining_cleanupCgroup _ _))
    | failure hpc => exact pay hpc (Nat.lt_succ_self 0)
  | waitAFailed site =>
    cases site with
    | killed hpc => exact pay hpc (Nat.lt_succ_of_le (remaining_cleanupCgroup _ _))
    | failed hpc =>
      exact pay hpc (Nat.lt_of_le_of_lt (remaining_fail _ _) (show 4 < 10 by decide))
    | failure hpc => exact pay hpc (Nat.lt_succ_self 0)
  | @removed caller retries hpc | @removeDenied caller retries _ hpc
  | @removeFailed caller retries _ hpc =>
    exact pay hpc (Nat.lt_of_le_of_lt (remaining_cleanupReturned _ _ _)
      (Nat.lt_of_lt_of_le (by decide) (Nat.le_add_left 4 retries)))
  | @removeBusy caller retries hpc =>
    have := retries_of_removeBusy hpc h
    exact pay hpc (by simp only [go, SupervisorPc.remaining]; omega)

namespace Runner

variable (r : Runner)

theorem remaining_pcAfterStdout : r.pcAfterStdout.remaining ≤ 214 := by grind -linarith

theorem remaining_pcAfterStdin : r.pcAfterStdin.remaining ≤ 215 := by grind -linarith

theorem remaining_afterControl : r.afterControl.pc.remaining ≤ 216 := by
  have := r.remaining_pcAfterStdin
  grind -linarith

theorem remaining_afterPoll : r.afterPoll.pc.remaining ≤ 219 := by
  have := r.remaining_afterControl
  grind -linarith

theorem remaining_cleanupAfterFailure (use : CleanupUse) :
    (r.cleanupAfterFailure use).pc.remaining ≤ 210 := by grind -linarith

theorem remaining_nextIteration (now : Int) : (r.nextIteration now).pc.remaining ≤ 212 := by
  grind -linarith

theorem remaining_endCleanup (site : Cleanup) : (r.endCleanup site).pc.remaining = 0 := by
  rcases site with _ | _ | _ | _ <;> grind -linarith

theorem remaining_afterReap (use : CleanupUse) : (r.afterReap use).pc.remaining ≤ 2 := by
  have := r.remaining_endCleanup (.afterFailure use)
  grind -linarith

theorem remaining_contained (ok : Bool) (site : Cleanup) :
    (r.contained ok site).pc.remaining ≤ 4 := by
  cases site with
  | beforeReady unexpected =>
    have := { r with containment_failed := true }.remaining_endCleanup (.beforeReady unexpected)
    cases ok <;> grind -linarith
  | afterFailure use =>
    have hyes := { r with execution_contained := true }.remaining_afterReap use
    have hno := { r with containment_failed := true }.remaining_afterReap use
    cases ok <;> grind -linarith

theorem remaining_cleanupWaited (ok : Bool) (site : Cleanup) :
    (r.cleanupWaited ok site).pc.remaining < (RunnerPc.waitSupervisor site).remaining := by
  cases site with
  | beforeReady => exact Nat.lt_succ_self 108
  | afterFailure use =>
    have hyes := { r with cleanup_reaped := true }.remaining_afterReap use
    have hno := { r with containment_failed := true }.remaining_afterReap use
    cases ok <;> grind -linarith

theorem remaining_received (header : SandboxMessageHeader) (payload : List Byte) :
    (r.received header payload).pc.remaining ≤ 213 := by grind -linarith

theorem remaining_headerReceived (header : SandboxMessageHeader) :
    (r.headerReceived header).pc.remaining ≤ 214 := by
  have := r.remaining_received header []
  grind -linarith

theorem remaining_handleHeader (header : SandboxMessageHeader) :
    (r.handleHeader header).pc.remaining ≤ 218 := by
  have := r.remaining_cleanupAfterFailure .runnerFailure
  grind -linarith

/-- The supervisor is looked for again while tries are left. -/
theorem tries_of_looked {use : CleanupUse} {tries : Nat}
    (hpc : w.runner.pc = .cleanupNoHang use tries) (h : Runner.step w x = some w')
    (hnext : w'.runner.pc = .cleanupNoHang use (tries + 1)) : tries < 100 := by
  by_contra hle
  have h100 : ¬ tries + 1 < 100 := by omega
  simp only [step, hpc] at h
  cases x <;> simp only [cleanupNoHang, reduceCtorEq] at h
  · split at h
    · split at h <;> cases h <;> simp [go] at hnext
    · cases h
      simp [go, h100] at hnext
  · split at h <;> cases h
    · simp [hpc] at hnext
    · simp [go] at hnext

/-- And so is the cgroup. -/
theorem tries_of_checked {site : Cleanup} {tries : Nat}
    (hpc : w.runner.pc = .checkEmpty site tries) (h : Runner.step w x = some w')
    (hnext : w'.runner.pc = .checkEmpty site (tries + 1)) : tries < 100 := by
  simp only [step, hpc, checkEmpty, Option.map_eq_some_iff] at h
  obtain ⟨isEmpty, -, rfl⟩ := h
  by_contra hle
  have h100 : 100 ≤ tries + 1 := by omega
  simp [go, h100] at hnext

theorem spends (h : Runner.step w x = some w') :
    x.interrupted = true ∧ w' = w ∨ w'.runner.pc.remaining < w.runner.pc.remaining ∨
      (∃ timeout, w.runner.pc = .poll timeout) ∧ w'.runner.pc.remaining ≤ 219 := by
  have pay {pc : RunnerPc} (hpc : w.runner.pc = pc) (hlt : w'.runner.pc.remaining < pc.remaining) :
      x.interrupted = true ∧ w' = w ∨ w'.runner.pc.remaining < w.runner.pc.remaining ∨
        (∃ timeout, w.runner.pc = .poll timeout) ∧ w'.runner.pc.remaining ≤ 219 :=
    .inr (.inl (hpc ▸ hlt))
  cases Runner.moves h with
  | again => exact .inl ⟨rfl, rfl⟩
  | @setupDone n hpc hn => exact pay hpc (by simp only [RunnerPc.remaining]; omega)
  | @forked n hpc hn => exact pay hpc (by simp only [RunnerPc.remaining]; omega)
  | @setupFailed n e hpc => exact pay hpc (by simp [runnerFailed, give, RunnerPc.remaining])
  | got site hlen =>
    cases site with
    | header hpc => exact pay hpc (Nat.lt_succ_of_le (remaining_headerReceived _ _))
    | payload hpc => exact pay hpc (Nat.lt_succ_of_le (remaining_received _ _ _))
    | loopHeader hpc => exact pay hpc (Nat.lt_succ_of_le (remaining_handleHeader _ _))
    | setupFailed hpc | terminated hpc => exact pay hpc (Nat.lt_succ_self 217)
  | lost site hx =>
    cases site with
    | header hpc => exact pay hpc (show 110 < 215 by decide)
    | payload hpc => exact pay hpc (show 110 < 214 by decide)
    | loopHeader hpc | setupFailed hpc | terminated hpc =>
      exact pay hpc (Nat.lt_of_le_of_lt (remaining_cleanupAfterFailure _ _) (by decide))
  | sent site =>
    cases site with
    | deadline hpc => exact pay hpc (Nat.lt_succ_self 211)
    | cleanup hpc => exact pay hpc (Nat.lt_succ_self 209)
  | sendFailed site =>
    cases site with
    | deadline hpc =>
      exact pay hpc (Nat.lt_of_le_of_lt (remaining_cleanupAfterFailure _ _) (by decide))
    | cleanup hpc => exact pay hpc (Nat.lt_succ_self 209)
  | waited site =>
    cases site with
    | reapFailed hpc => exact pay hpc (Nat.lt_succ_self 0)
    | setupFailed hpc => exact pay hpc (show 0 < 217 by decide)
    | terminated hpc => exact pay hpc (Nat.lt_succ_of_le (remaining_afterControl _))
    | loop hpc => exact pay hpc (show 0 < 211 by decide)
    | cleanup hpc => exact pay hpc (remaining_cleanupWaited _ _ _)
  | waitFailed site =>
    cases site with
    | reapFailed hpc => exact pay hpc (Nat.lt_succ_self 0)
    | setupFailed hpc | terminated hpc => exact pay hpc (show 0 < 217 by decide)
    | loop hpc => exact pay hpc (Nat.lt_succ_of_le (remaining_cleanupAfterFailure _ _))
    | cleanup hpc => exact pay hpc (remaining_cleanupWaited _ _ _)
  | looped hpc => exact pay hpc (Nat.lt_succ_of_le (remaining_nextIteration _ _))
  | polled hpc => exact .inr (.inr ⟨⟨_, hpc⟩, remaining_afterPoll _⟩)
  | wrote hpc | brokenStdin hpc => exact pay hpc (Nat.lt_succ_of_le (remaining_pcAfterStdin _))
  | gotStdout hpc => exact pay hpc (Nat.lt_succ_of_le (remaining_pcAfterStdout _))
  | gotStderr hpc => exact pay hpc (Nat.lt_succ_self 213)
  | ioFailed hpc =>
    have hle := w.runner.remaining_cleanupAfterFailure .checked
    obtain ⟨timeout, hpc⟩ | hpc | hpc | hpc := hpc
    · exact pay hpc (Nat.lt_succ_of_le hle)
    · exact pay hpc (Nat.lt_of_le_of_lt hle (by decide))
    · exact pay hpc (Nat.lt_of_le_of_lt hle (by decide))
    · exact pay hpc (Nat.lt_of_le_of_lt hle (by decide))
  | @cleanupReaped _ tries _ hpc =>
    exact pay hpc (Nat.lt_of_lt_of_le (Nat.lt_succ_self 108) (Nat.le_add_right 109 (100 - tries)))
  | @cleanupLooked _ use tries next hpc hnext =>
    obtain rfl | rfl := hnext
    · have := tries_of_looked hpc h rfl
      exact pay hpc (by simp only [go, RunnerPc.remaining]; omega)
    · exact pay hpc (Nat.lt_of_lt_of_le (Nat.lt_succ_self 108) (Nat.le_add_right 109 (100 - tries)))
  | @killedSupervisor site hpc | @killSupervisorFailed site _ hpc =>
    refine pay hpc ?_
    cases site with
    | beforeReady => exact Nat.lt_succ_self 109
    | afterFailure => exact Nat.lt_succ_self 3
  | openedKill hpc => exact pay hpc (Nat.lt_succ_self 107)
  | killWritten hpc => exact pay hpc (Nat.lt_succ_self 106)
  | killDenied hpc =>
    obtain hpc | hpc := hpc
    · exact pay hpc (show 106 < 108 by decide)
    · exact pay hpc (Nat.lt_succ_self 106)
  | killFailed hpc =>
    obtain hpc | hpc := hpc <;>
      exact pay hpc (Nat.lt_of_le_of_lt (remaining_contained _ _ _) (by simp [RunnerPc.remaining]))
  | @checked _ site tries next hpc hnext =>
    obtain rfl | rfl := hnext
    · have := tries_of_checked hpc h rfl
      exact pay hpc (by simp only [go, RunnerPc.remaining]; omega)
    · exact pay hpc (Nat.lt_of_lt_of_le (Nat.lt_succ_self 5) (Nat.le_add_right 6 (100 - tries)))
  | foundEmpty hpc | foundPopulated hpc =>
    exact pay hpc (Nat.lt_succ_of_le (remaining_contained _ _ _))
  | accessed hpc => exact pay hpc (Nat.lt_succ_self 1)
  | removeSkipped hpc =>
    obtain hpc | hpc := hpc
    · exact pay hpc (Nat.lt_of_le_of_lt (remaining_endCleanup _ _).le (Nat.zero_lt_succ 1))
    · exact pay hpc (Nat.lt_of_le_of_lt (remaining_endCleanup _ _).le (Nat.zero_lt_succ 0))
  | removed hpc | removeFailed hpc =>
    exact pay hpc (Nat.lt_of_le_of_lt (remaining_endCleanup _ _).le (Nat.zero_lt_succ 0))

end Runner

/-! ## What a run costs -/

/-- A call of the runner that was not interrupted; the other parties alike. -/
def runnerCall (_ : World) : Act → Nat
  | .runner x => if x.interrupted then 0 else 1
  | _ => 0

def supervisorCall (_ : World) : Act → Nat
  | .supervisor x => if x.interrupted then 0 else 1
  | _ => 0

def childACall (_ : World) : Act → Nat
  | .childA x => if x.interrupted then 0 else 1
  | _ => 0

def childBCall (_ : World) : Act → Nat
  | .childB x => if x.interrupted then 0 else 1
  | _ => 0

/-- A `poll` of the runner's loop. -/
def runnerPoll (w : World) : Act → Nat
  | .runner _ =>
    match w.runner.pc with
    | .poll _ => 1
    | _ => 0
  | _ => 0

/-- A `poll` of the supervisor's loop. -/
def supervisorPoll (w : World) : Act → Nat
  | .supervisor _ => if w.sup.pc = .poll then 1 else 0
  | _ => 0

theorem runner_pays (h : step w a = some w') :
    runnerCall w a + w'.runner.pc.remaining ≤ w.runner.pc.remaining + 9 * runnerPoll w a := by
  cases a with
  | runner x =>
    simp only [runnerCall, runnerPoll]
    rcases Runner.spends h with ⟨hx, rfl⟩ | hlt | ⟨⟨timeout, hpc⟩, hle⟩
    · simp [hx]
    · split <;> omega
    · rw [hpc]
      change _ ≤ 211 + 9 * 1
      split <;> omega
  | _ =>
    have hr : w'.runner = w.runner := by
      rcases (moves_step h).runner_cases with ⟨x, hx, -⟩ | hr
      · cases hx
      · exact hr
    simp [runnerCall, runnerPoll, hr]

theorem supervisor_pays (hl : Lineage w) (h : step w a = some w') :
    supervisorCall w a + w'.sup.pc.remaining ≤ w.sup.pc.remaining + 6 * supervisorPoll w a := by
  cases a with
  | supervisor x =>
    simp only [supervisorCall, supervisorPoll]
    rcases Supervisor.spends h with ⟨hx, rfl⟩ | hlt | ⟨hpc, hle⟩
    · simp [hx]
    · split <;> omega
    · rw [hpc]
      change _ ≤ 10 + 6 * 1
      split <;> omega
  | runner x =>
    simp only [supervisorCall, supervisorPoll]
    rcases (Runner.moves h).sup with hs | ⟨hpc, -, hs⟩
    · rw [hs]; omega
    · rw [hs, hl.unforked hpc]
      exact Nat.le_refl 22
  | die p =>
    simp only [supervisorCall, supervisorPoll]
    cases moves_step h <;> simp [Supervisor.go, SupervisorPc.remaining]
  | _ =>
    have hs : w'.sup = w.sup := by cases moves_step h <;> grind -linarith
    simp [supervisorCall, supervisorPoll, hs]

theorem childA_pays (hl : Lineage w) (h : step w a = some w') :
    childACall w a + w'.childA.remaining ≤ w.childA.remaining := by
  cases a with
  | childA x =>
    simp only [childACall]
    rcases ChildA.spends h with ⟨hx, rfl⟩ | hlt
    · simp [hx]
    · split <;> omega
  | supervisor x =>
    simp only [childACall]
    cases (Supervisor.moves h).phases with
    | forked hp _ ha =>
      rw [ha, hl.unborn hp]
      exact Nat.le_refl 18
    | same _ ha | released _ _ ha | «over» _ ha => rw [ha]; omega
  | die p =>
    simp only [childACall]
    cases moves_step h <;> simp [ChildA.remaining]
  | _ =>
    have ha : w'.childA = w.childA := by cases moves_step h <;> grind -linarith
    simp [childACall, ha]

theorem childB_pays (hl : Lineage w) (h : step w a = some w') :
    childBCall w a + w'.childB.remaining ≤ w.childB.remaining := by
  cases a with
  | childB x =>
    simp only [childBCall]
    rcases ChildB.spends h with ⟨hx, rfl⟩ | hlt
    · simp [hx]
    · split <;> omega
  | childA x =>
    simp only [childBCall]
    cases moves_step h with
    | childA hm =>
      cases hm with
      | forked hpc =>
        rw [hl.unbornB (by rw [hpc]; rfl)]
        exact Nat.le_refl 18
      | _ => simp
  | die p =>
    simp only [childBCall]
    cases moves_step h <;> simp [ChildB.remaining]
  | submission d =>
    simp only [childBCall]
    cases moves_step h <;> simp [ChildB.remaining]
  | _ =>
    have hb : w'.childB = w.childB := by
      cases moves_step h
      grind -linarith
    simp [childBCall, hb]

end OnlineJudge
