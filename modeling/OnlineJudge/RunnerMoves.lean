import OnlineJudge.Runner

/-!
# The outcomes of the runner's calls

Every call of the runner, taken apart once: the constructors of `Move` are the
ways it can end. What the calls leave alone, and what they do to the streams and
to the result, follows by cases.
-/

namespace OnlineJudge
namespace Runner

/-! ## Outcomes -/

/-- This call tells a cleanup routine that containment is not established. -/
def uncontained (w : World) (x : Answer) : Bool :=
  match w.runner.pc with
  | .waitSupervisor (.afterFailure _) =>
    x.failsWith (· ≠ EINTR) || x = .ok && w.reaped.supervisor
  | .openKill _ | .removeCgroup _ => x.failsWith fun e => !(permission e || e = ENOENT)
  | .writeKill _ =>
    x.failsWith (fun e => !(permission e || e = EINTR)) || x = .ok && !w.cgroup.present
  | .lastCheck _ => x ≠ .ok || !(w.cgroup.present && !w.populated)
  | _ => false

/-- The reads from the control socket: how many bytes, and what follows a
success and a failure. -/
inductive ReadSite (r : Runner) : Nat → (List Byte → Runner) → Runner → Prop
  | header (hpc : r.pc = .receiveHeader) :
    ReadSite r headerSize (fun bytes => r.headerReceived (.ofBytes bytes)) r.receiveFailed
  | payload {header} (hpc : r.pc = .receivePayload header) :
    ReadSite r header.payload_size.toNat (r.received header) r.receiveFailed
  | loopHeader (hpc : r.pc = .readHeader) :
    ReadSite r headerSize (fun bytes => r.handleHeader (.ofBytes bytes))
      (r.cleanupAfterFailure .runnerFailure)
  | setupFailed (hpc : r.pc = .readSetupFailed) :
    ReadSite r setupFailedSize r.handleSetupFailed (r.cleanupAfterFailure .checked)
  | terminated (hpc : r.pc = .readTerminated) :
    ReadSite r terminatedSize r.handleTerminated (r.cleanupAfterFailure .checked)

/-- The two places that send `Terminate`. -/
inductive SendSite (r : Runner) : Runner → Runner → Prop
  | deadline (hpc : r.pc = .sendTerminate) :
    SendSite r r.deadlineSent (r.cleanupAfterFailure .unused)
  | cleanup {use} (hpc : r.pc = .cleanupTerminate use) :
    SendSite r (r.cleanupSent use) (r.closeControl.go (.cleanupNoHang use 0))

/-- The blocking waits for the supervisor. -/
inductive WaitSite (w : World) : Runner → Runner → Prop
  | reapFailed (hpc : w.runner.pc = .reapFailed) :
    WaitSite w w.runner.closePipes.sandboxFailed w.runner.closePipes.sandboxFailed
  | setupFailed (hpc : w.runner.pc = .finishSetupFailed) :
    WaitSite w (w.runner.reaped.closePipes.giveStatus .sandboxFailure)
      (w.runner.closePipes.giveStatus .sandboxFailure)
  | terminated (hpc : w.runner.pc = .finishTerminated) :
    WaitSite w (w.runner.reaped.finishTerminated w.clock) w.runner.closePipes.runnerFailed
  | loop (hpc : w.runner.pc = .reapSupervisor) :
    WaitSite w w.runner.reaped.finish (w.runner.cleanupAfterFailure .checked)
  | cleanup {site} (hpc : w.runner.pc = .waitSupervisor site) :
    WaitSite w (w.runner.cleanupWaited true site) (w.runner.cleanupWaited false site)

/-- The outcomes of a call of the runner, one constructor for each way it can
end. -/
inductive Move (w : World) : Answer → World → Prop
  | again : Move w (.fail EINTR) w
  | setupDone {n} (hpc : w.runner.pc = .setup n) (hn : n < 5) :
    Move w .ok { w with
      runner := { w.runner with
        control_open := w.runner.control_open || n = 1
        pc := .setup (n + 1) } }
  | forked {n} (hpc : w.runner.pc = .setup n) (hn : 5 ≤ n) :
    Move w .ok { w with
      runner := { w.runner with
        start_time := w.clock
        deadline := deadlineOf w.clock w.runner.wall_limit
        pc := .receiveHeader }
      sup := w.sup.go .mkdirCgroup }
  | setupFailed {n e} (hpc : w.runner.pc = .setup n) :
    Move w (.fail e) { w with runner := w.runner.closePipes.closeControl.runnerFailed }
  | got {size yes no} (site : ReadSite w.runner size yes no)
    (hlen : size ≤ w.toRunner.pending.length) :
    Move w .ok { w with
      toRunner := w.toRunner.take size
      runner := yes (w.toRunner.pending.take size) }
  | lost {x size yes no} (site : ReadSite w.runner size yes no)
    (hx : (∃ e, x = .fail e) ∨ w.toRunner.pending.length < size ∧ w.controlPeer = false) :
    Move w x { w with runner := no }
  | sent {yes no} (site : SendSite w.runner yes no) (hpeer : w.controlPeer = true) :
    Move w .ok { w with toSup := w.toSup.put Message.terminate.bytes, runner := yes }
  | sendFailed {x yes no} (site : SendSite w.runner yes no)
    (hx : (∃ e, x = .fail e) ∨ x = .ok ∧ w.controlPeer = false) :
    Move w x { w with runner := no }
  | waited {yes no wait_status} (site : WaitSite w yes no)
    (hs : w.sup.pc = .exited wait_status) (hr : w.reaped.supervisor = false) :
    Move w .ok { w with reaped := { w.reaped with supervisor := true }, runner := yes }
  | waitFailed {x yes no} (site : WaitSite w yes no)
    (hx : (∃ e, x = .fail e ∧ e ≠ EINTR) ∨ x = .ok ∧ w.reaped.supervisor = true) :
    Move w x { w with runner := no }
  | looped (hpc : w.runner.pc = .loop) :
    Move w .ok { w with runner := w.runner.nextIteration w.clock }
  | polled {timeout revents} (hpc : w.runner.pc = .poll timeout)
    (hhup : revents.stdinHup = true → w.abandoned = true)
    (hout : revents.stdout = true → w.stdout.pending ≠ [] ∨ w.abandoned = true)
    (herr : revents.stderr = true → w.stderr.pending ≠ [] ∨ w.abandoned = true)
    (hcontrol : revents.control = true → w.toRunner.pending ≠ [] ∨ w.controlPeer = false) :
    Move w (.events revents) { w with runner := { w.runner with revents }.afterPoll }
  | wrote {n} (hpc : w.runner.pc = .writeStdin) (hn : 1 ≤ n ∧ n ≤ w.runner.chunk.length) :
    Move w (.count n) { w with
      stdin := w.stdin.put (w.runner.chunk.take n)
      runner := w.runner.wroteStdin n }
  | brokenStdin {x} (hpc : w.runner.pc = .writeStdin)
    (hx : x = .fail EPIPE ∨ w.abandoned = true) :
    Move w x { w with runner := w.runner.brokenStdin }
  | gotStdout {n} (hpc : w.runner.pc = .readStdout)
    (hn : readCount w.stdout.pending w.abandoned n = true) :
    Move w (.count n) { w with
      stdout := w.stdout.take n
      runner := w.runner.gotStdout (w.stdout.pending.take n) }
  | gotStderr {n} (hpc : w.runner.pc = .readStderr)
    (hn : readCount w.stderr.pending w.abandoned n = true) :
    Move w (.count n) { w with
      stderr := w.stderr.take n
      runner := w.runner.gotStderr (w.stderr.pending.take n) }
  /-- `poll`, or a transfer on one of the three streams, failed. -/
  | ioFailed {e}
    (hpc : (∃ timeout, w.runner.pc = .poll timeout) ∨ w.runner.pc = .writeStdin ∨
      w.runner.pc = .readStdout ∨ w.runner.pc = .readStderr) :
    Move w (.fail e) { w with runner := w.runner.cleanupAfterFailure .checked }
  | cleanupReaped {use tries wait_status} (hpc : w.runner.pc = .cleanupNoHang use tries)
    (hs : w.sup.pc = .exited wait_status) (hr : w.reaped.supervisor = false) :
    Move w .ok { w with
      reaped := { w.reaped with supervisor := true }
      runner := { w.runner with cleanup_reaped := true }.go (.openKill (.afterFailure use)) }
  /-- `waitpid` found nothing, or failed. -/
  | cleanupLooked {x use tries next} (hpc : w.runner.pc = .cleanupNoHang use tries)
    (hnext : next = .cleanupNoHang use (tries + 1) ∨ next = .openKill (.afterFailure use)) :
    Move w x { w with runner := w.runner.go next }
  | killedSupervisor {site} (hpc : w.runner.pc = .killSupervisor site) :
    Move w .ok { w with
      killed := { w.killed with supervisor := w.killed.supervisor || w.sup.alive }
      runner := w.runner.go (.waitSupervisor site) }
  | killSupervisorFailed {site e} (hpc : w.runner.pc = .killSupervisor site) :
    Move w (.fail e) { w with runner := w.runner.go (.waitSupervisor site) }
  | openedKill {site} (hpc : w.runner.pc = .openKill site) (hp : w.cgroup.present = true) :
    Move w .ok { w with runner := w.runner.go (.writeKill site) }
  | killWritten {site} (hpc : w.runner.pc = .writeKill site) (hp : w.cgroup.present = true) :
    Move w .ok { w.killCgroup with runner := w.runner.go (.checkEmpty site 0) }
  /-- `kill_execution_cgroup` takes a missing or forbidden file for success. -/
  | killDenied {x site} (hpc : w.runner.pc = .openKill site ∨ w.runner.pc = .writeKill site) :
    Move w x { w with runner := w.runner.go (.checkEmpty site 0) }
  | killFailed {x site} (hpc : w.runner.pc = .openKill site ∨ w.runner.pc = .writeKill site)
    (hx : uncontained w x = true) :
    Move w x { w with runner := w.runner.contained false site }
  | checked {x site tries next} (hpc : w.runner.pc = .checkEmpty site tries)
    (hnext : next = .checkEmpty site (tries + 1) ∨ next = .lastCheck site) :
    Move w x { w with runner := w.runner.go next }
  | foundEmpty {site} (hpc : w.runner.pc = .lastCheck site) (hp : w.cgroup.present = true)
    (he : w.populated = false) :
    Move w .ok { w with runner := w.runner.contained true site }
  | foundPopulated {x site} (hpc : w.runner.pc = .lastCheck site) (hx : uncontained w x = true) :
    Move w x { w with runner := w.runner.contained false site }
  | accessed {site} (hpc : w.runner.pc = .accessCgroup site) (hp : w.cgroup.present = true) :
    Move w .ok { w with runner := w.runner.go (.removeCgroup site) }
  /-- The directory is not there, or it may not be looked at or removed. -/
  | removeSkipped {x site}
    (hpc : w.runner.pc = .accessCgroup site ∨ w.runner.pc = .removeCgroup site) :
    Move w x { w with runner := w.runner.endCleanup site }
  | removed {site} (hpc : w.runner.pc = .removeCgroup site)
    (he : (w.cgroup.present && w.populated) = false) :
    Move w .ok { w with
      cgroup := { w.cgroup with present := false }
      runner := w.runner.endCleanup site }
  | removeFailed {x site} (hpc : w.runner.pc = .removeCgroup site) (hx : uncontained w x = true) :
    Move w x { w with runner := { w.runner with containment_failed := true }.endCleanup site }

theorem moves_read {w w' : World} {x : Answer} {size : Nat} {yes : List Byte → Runner} {no : Runner}
    (site : ReadSite w.runner size yes no) (h : readControl w size yes no x = some w') :
    Move w x w' := by
  cases x <;> simp only [readControl, reduceCtorEq] at h
  · split at h
    · rename_i hlen
      cases h; exact .got site hlen
    · rename_i hlen
      split at h <;> cases h
      rename_i hpeer
      exact .lost site (.inr ⟨by omega, by simpa using hpeer⟩)
  · split at h
    · rename_i he
      cases h; subst he; exact .again
    · cases h; exact .lost site (.inl ⟨_, rfl⟩)

theorem moves_send {w w' : World} {x : Answer} {yes no : Runner}
    (site : SendSite w.runner yes no) (h : sendTerminate w yes no x = some w') :
    Move w x w' := by
  cases x <;> simp only [sendTerminate, reduceCtorEq] at h
  · split at h <;> cases h
    · rename_i hpeer; exact .sent site hpeer
    · rename_i hpeer; exact .sendFailed site (.inr ⟨rfl, by simpa using hpeer⟩)
  · split at h
    · rename_i he
      cases h; subst he; exact .again
    · cases h; exact .sendFailed site (.inl ⟨_, rfl⟩)

theorem moves_wait {w w' : World} {x : Answer} {yes no : Runner} (site : WaitSite w yes no)
    (h : waitSupervisor w yes no x = some w') : Move w x w' := by
  cases x <;> simp only [waitSupervisor, reduceCtorEq] at h
  · split at h
    · rename_i hs
      split at h <;> cases h
      · rename_i hr; exact .waitFailed site (.inr ⟨rfl, hr⟩)
      · rename_i hr; exact .waited site hs (by simpa using hr)
    · cases h
  · split at h
    · rename_i he
      cases h; subst he; exact .again
    · rename_i he
      cases h; exact .waitFailed site (.inl ⟨_, rfl, he⟩)

theorem moves {w w' : World} {x : Answer} (h : step w x = some w') : Move w x w' := by
  cases hpc : w.runner.pc with
  | returned => simp [step, hpc] at h
  | setup n =>
    simp only [step, hpc] at h
    cases x <;> simp only [setup, reduceCtorEq] at h
    · split at h <;> cases h
      · rename_i hn; exact .setupDone hpc hn
      · rename_i hn; exact .forked hpc (by omega)
    · cases h; exact .setupFailed hpc
  | receiveHeader =>
    simp only [step, hpc] at h
    exact moves_read (.header hpc) h
  | receivePayload header =>
    simp only [step, hpc] at h
    exact moves_read (.payload hpc) h
  | readHeader =>
    simp only [step, hpc] at h
    exact moves_read (.loopHeader hpc) h
  | readSetupFailed =>
    simp only [step, hpc] at h
    exact moves_read (.setupFailed hpc) h
  | readTerminated =>
    simp only [step, hpc] at h
    exact moves_read (.terminated hpc) h
  | sendTerminate =>
    simp only [step, hpc] at h
    exact moves_send (.deadline hpc) h
  | cleanupTerminate use =>
    simp only [step, hpc] at h
    exact moves_send (.cleanup hpc) h
  | reapFailed =>
    simp only [step, hpc] at h
    exact moves_wait (.reapFailed hpc) h
  | finishSetupFailed =>
    simp only [step, hpc] at h
    exact moves_wait (.setupFailed hpc) h
  | finishTerminated =>
    simp only [step, hpc] at h
    exact moves_wait (.terminated hpc) h
  | reapSupervisor =>
    simp only [step, hpc] at h
    exact moves_wait (.loop hpc) h
  | waitSupervisor site =>
    simp only [step, hpc] at h
    exact moves_wait (.cleanup hpc) h
  | loop =>
    simp only [step, hpc] at h
    cases x <;> simp only [loopHead, reduceCtorEq] at h
    cases h; exact .looped hpc
  | poll timeout =>
    simp only [step, hpc] at h
    cases x <;> simp only [poll, reduceCtorEq] at h
    · split at h
      · rename_i he
        cases h; subst he; exact .again
      · cases h; exact .ioFailed (.inl ⟨_, hpc⟩)
    · split at h <;> cases h
      rename_i hready
      exact .polled hpc hready.1 hready.2.1 hready.2.2.1 hready.2.2.2
  | writeStdin =>
    simp only [step, hpc] at h
    cases x <;> simp only [writeStdin, reduceCtorEq] at h
    · split at h
      · rename_i he
        cases h; subst he; exact .again
      · split at h <;> cases h
        · rename_i he; exact .brokenStdin hpc (.inl (he ▸ rfl))
        · exact .ioFailed (.inr (.inl hpc))
    · split at h
      · rename_i ha
        cases h; exact .brokenStdin hpc (.inr ha)
      · split at h <;> cases h
        rename_i hn
        exact .wrote hpc hn
  | readStdout =>
    simp only [step, hpc] at h
    cases x <;> simp only [readStdout, reduceCtorEq] at h
    · split at h
      · rename_i he
        cases h; subst he; exact .again
      · cases h; exact .ioFailed (.inr (.inr (.inl hpc)))
    · split at h <;> cases h
      rename_i hn
      exact .gotStdout hpc hn
  | readStderr =>
    simp only [step, hpc] at h
    cases x <;> simp only [readStderr, reduceCtorEq] at h
    · split at h
      · rename_i he
        cases h; subst he; exact .again
      · cases h; exact .ioFailed (.inr (.inr (.inr hpc)))
    · split at h <;> cases h
      rename_i hn
      exact .gotStderr hpc hn
  | cleanupNoHang use tries =>
    simp only [step, hpc] at h
    cases x <;> simp only [cleanupNoHang, reduceCtorEq] at h
    · split at h
      · rename_i hs
        split at h <;> cases h
        · exact .cleanupLooked hpc (.inr rfl)
        · rename_i hr; exact .cleanupReaped hpc hs (by simpa using hr)
      · cases h
        refine .cleanupLooked hpc ?_
        split <;> simp
    · split at h
      · rename_i he
        cases h; subst he; exact .again
      · cases h; exact .cleanupLooked hpc (.inr rfl)
  | killSupervisor site =>
    simp only [step, hpc] at h
    cases x <;> simp only [killSupervisor, reduceCtorEq] at h <;> cases h
    · exact .killedSupervisor hpc
    · exact .killSupervisorFailed hpc
  | openKill site =>
    simp only [step, hpc] at h
    cases x <;> simp only [openKill, reduceCtorEq] at h
    · cases h
      split
      · rename_i hp; exact .openedKill hpc hp
      · exact .killDenied (.inl hpc)
    · split at h <;> cases h
      · exact .killDenied (.inl hpc)
      · rename_i he; exact .killFailed (.inl hpc) (by simp [uncontained, hpc, Answer.failsWith, he])
  | writeKill site =>
    simp only [step, hpc] at h
    cases x <;> simp only [writeKill, reduceCtorEq] at h
    · split at h <;> cases h
      · rename_i hp; exact .killWritten hpc hp
      · rename_i hp; exact .killFailed (.inr hpc) (by simp [uncontained, hpc, hp])
    · split at h
      · rename_i he
        cases h; subst he; exact .again
      · rename_i hne
        split at h <;> cases h
        · exact .killDenied (.inr hpc)
        · rename_i he
          exact .killFailed (.inr hpc) (by simp [uncontained, hpc, Answer.failsWith, he, hne])
  | checkEmpty site tries =>
    simp only [step, hpc, checkEmpty, Option.map_eq_some_iff] at h
    obtain ⟨isEmpty, -, rfl⟩ := h
    refine .checked hpc ?_
    split <;> simp
  | lastCheck site =>
    simp only [step, hpc, lastCheck, Option.map_eq_some_iff] at h
    obtain ⟨isEmpty, hempty, rfl⟩ := h
    cases x <;> simp only [isExecutionCgroupEmpty, Option.some.injEq, reduceCtorEq] at hempty <;>
      subst hempty
    · rw [populatedIsZero_cgroupEvents]
      cases hc : w.cgroup.present && !w.populated with
      | true =>
        rw [Bool.and_eq_true, Bool.not_eq_true'] at hc
        exact .foundEmpty hpc hc.1 hc.2
      | false => exact .foundPopulated hpc (by simp only [uncontained, hpc, hc]; rfl)
    · exact .foundPopulated hpc (by simp [uncontained, hpc])
  | accessCgroup site =>
    simp only [step, hpc] at h
    cases x <;> simp only [accessCgroup, reduceCtorEq] at h <;> cases h
    · split
      · rename_i hp; exact .accessed hpc hp
      · exact .removeSkipped (.inl hpc)
    · exact .removeSkipped (.inl hpc)
  | removeCgroup site =>
    simp only [step, hpc] at h
    cases x <;> simp only [removeCgroup, reduceCtorEq] at h
    · split at h <;> cases h
      rename_i he
      exact .removed hpc (by simpa using he)
    · cases h
      split
      · exact .removeSkipped (.inr hpc)
      · rename_i he
        exact .removeFailed hpc (by simp [uncontained, hpc, Answer.failsWith, he])

section
variable {w w' : World} {x : Answer}

@[grind →] theorem Move.childA (h : Move w x w') : w'.childA = w.childA := by cases h <;> rfl
@[grind →] theorem Move.childB (h : Move w x w') : w'.childB = w.childB := by cases h <;> rfl
@[grind →] theorem Move.statusPipe (h : Move w x w') : w'.statusPipe = w.statusPipe := by
  cases h <;> rfl
@[grind →] theorem Move.released (h : Move w x w') : w'.released = w.released := by
  cases h <;> rfl

@[grind →] theorem Move.hasA (h : Move w x w') : w'.cgroup.hasA = w.cgroup.hasA := by
  cases h <;> rfl
@[grind →] theorem Move.hasB (h : Move w x w') : w'.cgroup.hasB = w.cgroup.hasB := by
  cases h <;> rfl

/-- What the runner takes from the control socket, the others have sent. -/
@[grind →] theorem Move.toRunner_sent (h : Move w x w') : w'.toRunner.sent = w.toRunner.sent := by
  cases h <;> simp [World.killCgroup]

theorem Move.killed_mono (h : Move w x w') :
    (w.killed.childA = true → w'.killed.childA = true) ∧
      (w.killed.childB = true → w'.killed.childB = true) := by
  cases h <;> grind -linarith

/-- There is no way back into the setup. -/
theorem Move.setup (hm : Move w x w') (h : ∃ n, w'.runner.pc = .setup n) :
    (∃ n, w.runner.pc = .setup n) ∧ w'.sup = w.sup := by
  cases hm with
  | got site | lost site => cases site <;> grind -linarith
  | sent site | sendFailed site => cases site <;> grind -linarith
  | waited site | waitFailed site =>
    cases site with
    | @cleanup site => rcases site with _ | _ | _ | _ <;> grind -linarith
    | _ => grind -linarith
  | @killFailed _ site | @foundEmpty site | @foundPopulated _ site | @removeSkipped _ site
  | @removed site | @removeFailed _ site =>
    rcases site with _ | _ | _ | _ <;> grind -linarith
  | _ => grind -linarith

/-- The runner never touches the supervisor but to fork it. -/
@[grind →] theorem Move.sup (h : Move w x w') :
    w'.sup = w.sup ∨ (∃ n, w.runner.pc = .setup n) ∧ w'.runner.pc = .receiveHeader ∧
      w'.sup = w.sup.go .mkdirCgroup := by
  cases h with
  | forked hpc => exact .inr ⟨⟨_, hpc⟩, rfl, rfl⟩
  | _ => exact .inl rfl

end

/-- At the head of the loop there is only one call to make. -/
theorem Move.of_loop {w w' : World} {x : Answer} (h : Move w x w') (hpc : w.runner.pc = .loop) :
    w' = w ∨ w' = { w with runner := w.runner.nextIteration w.clock } := by
  cases h with
  | again => exact .inl rfl
  | looped => exact .inr rfl
  | got site | lost site => cases site <;> simp_all
  | sent site | sendFailed site => cases site <;> simp_all
  | waited site | waitFailed site => cases site <;> simp_all
  | _ => simp_all

/-- After the return nothing is left to do. -/
theorem Move.of_returned {w w' : World} {x : Answer} (hm : Move w x w')
    (hpc : w.runner.pc = .returned) : w' = w := by
  cases hm with
  | again => rfl
  | got site | lost site => cases site <;> simp_all
  | sent site | sendFailed site => cases site <;> simp_all
  | waited site | waitFailed site => cases site <;> simp_all
  | _ => simp_all

end Runner

/-! ## Before any cleanup -/

/-- The runner is not in one of its cleanup routines, and has not returned. -/
def RunnerPc.watching : RunnerPc → Bool
  | cleanupTerminate _ | cleanupNoHang _ _ | killSupervisor _ | waitSupervisor _ | openKill _
  | writeKill _ | checkEmpty _ _ | lastCheck _ | accessCgroup _ | removeCgroup _ | returned => false
  | _ => true

attribute [grind =] RunnerPc.watching

namespace Runner

/-- As long as the runner watches, it kills nothing and leaves the cgroup
alone. -/
theorem Move.watching {w w' : World} {x : Answer} (hm : Move w x w')
    (h : w'.runner.pc.watching = true) :
    w.runner.pc.watching = true ∧ w'.killed = w.killed ∧ w'.cgroup = w.cgroup := by
  cases hm with
  | got site | lost site => cases site <;> grind -linarith
  | sent site | sendFailed site => cases site <;> grind -linarith
  | waited site | waitFailed site =>
    cases site with
    | @cleanup site => rcases site with _ | _ | _ | _ <;> grind -linarith
    | _ => grind -linarith
  | @killFailed _ site | @foundEmpty site | @foundPopulated _ site | @removeSkipped _ site
  | @removed site | @removeFailed _ site =>
    rcases site with _ | _ | _ | _ <;> grind -linarith
  | _ => grind -linarith

/-! ## Program counter and flags -/

/-- A call on a stream is about to be made only while it is open, and once
`Terminated` has arrived nothing is left but to settle it and return. -/
structure Ordered (r : Runner) : Prop where
  stdin : r.pc = .writeStdin → r.stdin_open = true
  stdout : r.pc = .readStdout → r.stdout_open = true
  stderr : r.pc = .readStderr → r.stderr_open = true
  settling : r.pc = .finishTerminated → r.submission_finished = true
  finishing : r.submission_finished = true → r.pc = .finishTerminated ∨ r.pc = .returned ∨
    r.pc = .loop ∧ r.supervisor_reaped = true ∧
      r.stdin_open = false ∧ r.stdout_open = false ∧ r.stderr_open = false
  reaping : r.pc ≠ .reapSupervisor

/-- Away from the calls on the streams and from the settlement, all that counts
is that the submission is not finished. -/
theorem Ordered.elsewhere {r : Runner} (hf : r.submission_finished = false)
    (hpc : r.pc ≠ .writeStdin ∧ r.pc ≠ .readStdout ∧ r.pc ≠ .readStderr ∧
      r.pc ≠ .finishTerminated ∧ r.pc ≠ .reapSupervisor) : Ordered r :=
  ⟨fun h => absurd h hpc.1, fun h => absurd h hpc.2.1, fun h => absurd h hpc.2.2.1,
    fun h => absurd h hpc.2.2.2.1, fun h => by simp [hf] at h, hpc.2.2.2.2⟩

theorem Ordered.move {w w' : World} {x : Answer} (h : Ordered w.runner) (hm : Move w x w') :
    Ordered w'.runner := by
  have hord := h
  obtain ⟨hin, hout, herr, hset, hfin, hreap⟩ := h
  cases hm with
  | again => exact hord
  | got site =>
    cases site with
    | terminated => constructor <;> grind -linarith
    | _ => exact .elsewhere (by grind -linarith) (by grind -linarith)
  | lost site => cases site <;> exact .elsewhere (by grind -linarith) (by grind -linarith)
  | sent site | sendFailed site =>
    cases site <;> exact .elsewhere (by grind -linarith) (by grind -linarith)
  | waited site | waitFailed site =>
    cases site with
    | @cleanup site =>
      rcases site with _ | _ | _ | _ <;> exact .elsewhere (by grind -linarith) (by grind -linarith)
    | reapFailed | setupFailed => exact .elsewhere (by grind -linarith) (by grind -linarith)
    | _ => constructor <;> grind -linarith
  | @killFailed _ site | @foundEmpty site | @foundPopulated _ site | @removeSkipped _ site
  | @removed site | @removeFailed _ site =>
    rcases site with _ | _ | _ | _ <;> exact .elsewhere (by grind -linarith) (by grind -linarith)
  | looped | polled | wrote | brokenStdin | gotStdout | gotStderr =>
    constructor <;> grind -linarith
  | _ => exact .elsewhere (by grind -linarith) (by grind -linarith)

/-! ## What a call does to the streams -/

/-- An open stream was open before; what is captured is what is taken; an output
pipe is closed by a read, by settling `Terminated`, or on the way out. -/
structure Streams (w : World) (x : Answer) (w' : World) : Prop where
  stdout_open : w'.runner.stdout_open = true → w.runner.stdout_open = true
  stderr_open : w'.runner.stderr_open = true → w.runner.stderr_open = true
  out : w'.stdout = w.stdout ∧ w'.runner.stdout_output = w.runner.stdout_output ∨
    ∃ n, w.runner.pc = .readStdout ∧ readCount w.stdout.pending w.abandoned n = true ∧
      w'.stdout = w.stdout.take n ∧ w'.runner = w.runner.gotStdout (w.stdout.pending.take n)
  err : w'.stderr = w.stderr ∧ w'.runner.stderr_output = w.runner.stderr_output ∨
    ∃ n, w.runner.pc = .readStderr ∧ readCount w.stderr.pending w.abandoned n = true ∧
      w'.stderr = w.stderr.take n ∧ w'.runner = w.runner.gotStderr (w.stderr.pending.take n)
  out_closed : w'.runner.stdout_open = false → w.runner.stdout_open = false ∨
    w'.stdout.pending = [] ∨ x = .ok ∧ w.runner.pc = .finishTerminated ∨
    w.runner.pc ≠ .returned ∧ w'.runner.pc = .returned
  err_closed : w'.runner.stderr_open = false → w.runner.stderr_open = false ∨
    w'.stderr.pending = [] ∨ x = .ok ∧ w.runner.pc = .finishTerminated ∨
    w.runner.pc ≠ .returned ∧ w'.runner.pc = .returned

/-- What `run` holds of the output pipes, and what it has captured from them. -/
@[grind =] def outputs (r : Runner) : (Bool × Bool) × List Byte × List Byte :=
  ((r.stdout_open, r.stderr_open), r.stdout_output, r.stderr_output)

theorem Streams.of_eq {w w' : World} {x : Answer} (hout : w'.stdout = w.stdout)
    (herr : w'.stderr = w.stderr) (h : w'.runner.outputs = w.runner.outputs) : Streams w x w' := by
  simp only [outputs, Prod.mk.injEq] at h
  obtain ⟨⟨hio, hie⟩, ho, he⟩ := h
  exact ⟨(hio ▸ ·), (hie ▸ ·), .inl ⟨hout, ho⟩, .inl ⟨herr, he⟩, fun h => .inl (hio ▸ h),
    fun h => .inl (hie ▸ h)⟩

/-- Settling `Terminated` and a return close both pipes. -/
theorem Streams.of_closed {w w' : World} {x : Answer} (hout : w'.stdout = w.stdout)
    (herr : w'.stderr = w.stderr) (h : w'.runner.outputs = w.runner.closePipes.outputs)
    (hend : x = .ok ∧ w.runner.pc = .finishTerminated ∨
      w.runner.pc ≠ .returned ∧ w'.runner.pc = .returned) : Streams w x w' := by
  simp only [outputs, closePipes, Prod.mk.injEq] at h
  obtain ⟨⟨hio, hie⟩, ho, he⟩ := h
  exact ⟨by simp [hio], by simp [hie], .inl ⟨hout, ho⟩, .inl ⟨herr, he⟩,
    fun _ => .inr (.inr hend), fun _ => .inr (.inr hend)⟩

theorem pending_eq_nil_of_readCount {pending : List Byte} {abandoned : Bool} {n : Nat}
    (hn : readCount pending abandoned n = true) (ht : pending.take n = []) :
    pending = [] := by
  cases pending with
  | nil => rfl
  | cons b rest =>
    cases n with
    | zero => simp [readCount] at hn
    | succ n => simp at ht

/-- A cleanup routine leaves the pipes alone until it returns. -/
theorem streams_cleanup {w w' : World} {x : Answer} (hout : w'.stdout = w.stdout)
    (herr : w'.stderr = w.stderr) (hpc : w.runner.pc ≠ .returned)
    (h : w'.runner.pc ≠ .returned ∧ w'.runner.outputs = w.runner.outputs ∨
      w'.runner.pc = .returned ∧ w'.runner.outputs = w.runner.closePipes.outputs) :
    Streams w x w' := by
  rcases h with ⟨-, h⟩ | ⟨hpc', h⟩
  · exact .of_eq hout herr h
  · exact .of_closed hout herr h (.inr ⟨hpc, hpc'⟩)

theorem Move.streams {w w' : World} {x : Answer} (hm : Move w x w') : Streams w x w' := by
  cases hm with
  | got site | lost site => cases site <;> exact .of_eq rfl rfl (by grind -linarith)
  | sent site | sendFailed site => cases site <;> exact .of_eq rfl rfl (by grind -linarith)
  | waited site | waitFailed site =>
    cases site with
    | @cleanup site =>
      refine streams_cleanup rfl rfl (by grind -linarith) ?_
      rcases site with _ | _ | _ | _ <;> grind -linarith
    | terminated => exact .of_closed rfl rfl (by grind -linarith) (by grind -linarith)
    | _ => constructor <;> grind -linarith
  | looped => constructor <;> grind -linarith
  | gotStdout hpc hn =>
    have := pending_eq_nil_of_readCount hn
    exact ⟨by grind -linarith, by grind -linarith, .inr ⟨_, hpc, hn, rfl, rfl⟩, .inl ⟨rfl, rfl⟩,
      by grind -linarith, by grind -linarith⟩
  | gotStderr hpc hn =>
    have := pending_eq_nil_of_readCount hn
    exact ⟨by grind -linarith, by grind -linarith, .inl ⟨rfl, rfl⟩, .inr ⟨_, hpc, hn, rfl, rfl⟩,
      by grind -linarith, by grind -linarith⟩
  | @killFailed _ site | @foundEmpty site | @foundPopulated _ site | @removeSkipped _ site
  | @removed site | @removeFailed _ site =>
    refine streams_cleanup rfl rfl (by grind -linarith) ?_
    rcases site with _ | _ | _ | _ <;> grind -linarith
  | setupFailed => exact .of_closed rfl rfl rfl (.inr ⟨by grind -linarith, rfl⟩)
  | polled | wrote | brokenStdin | ioFailed => exact .of_eq rfl rfl (by grind -linarith)
  | _ => exact .of_eq rfl rfl rfl

/-! ## What a call does to the result -/

/-- How a call changes the result: the deadline branch notes the limit,
`Terminated` is settled, `run` returns after the loop, or it returns a
failure. -/
inductive Advance (r r' : Runner) : Prop
  | unchanged (h : r'.result = r.result) (hpc : r'.pc = .returned ↔ r.pc = .returned)
    (hloop : r'.pc = .loop → r'.submission_finished = true →
      r.submission_finished = true ∧ r.pc ≠ .finishTerminated)
  | deadline (hpc : r.pc = .sendTerminate) (hpc' : r'.pc = .poll 10)
    (h : r'.result = { r.result with wall_time_limit_exceeded := true })
  | settled (hpc : r.pc = .finishTerminated) (hpc' : r'.pc = .loop) (now : Int)
    (h : r'.result =
      (r.result.finalizeResourceUsage r.start_time now r.usage).finalizeStatus r.status)
    (hs : r'.status = r.status ∧ r'.submission_finished = r.submission_finished)
  | finished (hpc : r.pc = .reapSupervisor ∨ r.pc = .loop ∧ r.submission_finished = true ∧
      r.stdin_open = false ∧ r.stdout_open = false ∧ r.stderr_open = false)
    (hpc' : r'.pc = .returned)
    (h : r'.result = { r.result.classify r.status with
      stdout_output := r.stdout_output, stderr_output := r.stderr_output })
  | failed (hpc : r.pc ≠ .returned) (hpc' : r'.pc = .returned)
    (state : ExecutionState) (status : ExecutionStatus)
    (hstatus : status = .runnerFailure ∨ status = .sandboxFailure ∨ status = r.result.status)
    (h : r'.result = { r.result with state, status })

section
variable {r r₀ : Runner}

theorem advance_endCleanup (hpc : r.pc ≠ .returned) (h : r₀.result = r.result)
    (site : Cleanup) :
    Advance r (r₀.endCleanup site) := by
  rcases site with unexpected | use
  · cases unexpected
    · exact .failed hpc (by grind -linarith) .sandboxFailed .sandboxFailure (by simp)
        (by grind -linarith)
    · exact .failed hpc (by grind -linarith) .runnerFailed .runnerFailure (by simp)
        (by grind -linarith)
  · cases use with
    | unused => exact .failed hpc (by grind -linarith) r.result.state r.result.status (by simp) h
    | runnerFailure =>
      exact .failed hpc (by grind -linarith) r.result.state .runnerFailure (by simp)
        (by grind -linarith)
    | checked =>
      cases hc : r₀.containment_failed
      · exact .failed hpc (by grind -linarith) r.result.state .runnerFailure (by simp)
          (by grind -linarith)
      · exact .failed hpc (by grind -linarith) r.result.state .sandboxFailure (by simp)
          (by grind -linarith)

theorem advance_afterReap (hpc : r.pc ≠ .returned) (h : r₀.result = r.result) (use : CleanupUse) :
    Advance r (r₀.afterReap use) := by
  unfold afterReap
  split
  · exact .unchanged (by grind -linarith) (by grind -linarith) (by grind -linarith)
  · exact advance_endCleanup hpc h _

theorem advance_contained (hpc : r.pc ≠ .returned) (h : r₀.result = r.result) (ok : Bool)
    (site : Cleanup) : Advance r (r₀.contained ok site) := by
  rcases site with unexpected | use
  · cases ok
    · simp only [contained, Bool.false_eq_true, if_false]
      exact advance_endCleanup hpc (by exact h) _
    · exact .unchanged (by grind -linarith) (by grind -linarith) (by grind -linarith)
  · cases ok
    · simp only [contained, afterContain, Bool.false_eq_true, if_false]
      split
      · exact advance_afterReap hpc (by exact h) use
      · exact .unchanged (by grind -linarith) (by grind -linarith) (by grind -linarith)
    · simp only [contained, afterContain, if_true]
      split
      · exact advance_afterReap hpc (by exact h) use
      · exact .unchanged (by grind -linarith) (by grind -linarith) (by grind -linarith)

theorem advance_cleanupWaited (hpc : r.pc ≠ .returned) (h : r₀.result = r.result) (ok : Bool)
    (site : Cleanup) : Advance r (r₀.cleanupWaited ok site) := by
  rcases site with unexpected | use
  · exact .unchanged (by grind -linarith) (by grind -linarith) (by grind -linarith)
  · cases ok
    · simp only [cleanupWaited, Bool.false_eq_true, if_false]
      exact advance_afterReap hpc (by exact h) use
    · simp only [cleanupWaited, if_true]
      exact advance_afterReap hpc (by exact h) use

theorem advance_nextIteration (hpc : r.pc = .loop) (now : Int) :
    Advance r (r.nextIteration now) := by
  unfold nextIteration
  split
  · rename_i hclosed
    split
    · exact .finished (.inr ⟨hpc, by simpa [and_assoc] using hclosed⟩) rfl rfl
    · exact .unchanged rfl (by simp [go, hpc]) (by rintro ⟨⟩)
  · split <;> exact .unchanged rfl (by simp [go, hpc]) (by rintro ⟨⟩)

end

theorem Move.advance {w w' : World} {x : Answer} (h : Move w x w') :
    Advance w.runner w'.runner := by
  cases h with
  | again => exact .unchanged rfl .rfl (by grind -linarith)
  | setupFailed hpc => exact .failed (by simp [hpc]) rfl _ _ (.inl rfl) rfl
  | got site | lost site | sendFailed site =>
    cases site <;> exact .unchanged (by grind -linarith) (by grind -linarith) (by grind -linarith)
  | sent site =>
    cases site with
    | deadline hpc => exact .deadline hpc rfl rfl
    | cleanup => exact .unchanged (by grind -linarith) (by grind -linarith) (by grind -linarith)
  | waited site =>
    cases site with
    | reapFailed hpc => exact .failed (by simp [hpc]) rfl _ _ (.inr (.inl rfl)) rfl
    | setupFailed hpc => exact .failed (by simp [hpc]) rfl _ _ (.inr (.inl rfl)) rfl
    | terminated hpc =>
      exact .settled hpc (by grind -linarith) w.clock (by grind -linarith) (by grind -linarith)
    | loop hpc => exact .finished (.inl hpc) rfl rfl
    | @cleanup site hpc => exact advance_cleanupWaited (by simp [hpc]) rfl true site
  | waitFailed site =>
    cases site with
    | reapFailed hpc => exact .failed (by simp [hpc]) rfl _ _ (.inr (.inl rfl)) rfl
    | setupFailed hpc => exact .failed (by simp [hpc]) rfl _ _ (.inr (.inl rfl)) rfl
    | terminated hpc => exact .failed (by simp [hpc]) rfl _ _ (.inl rfl) rfl
    | loop hpc => exact .unchanged (by grind -linarith) (by grind -linarith) (by grind -linarith)
    | @cleanup site hpc => exact advance_cleanupWaited (by simp [hpc]) rfl false site
  | looped hpc => exact advance_nextIteration hpc _
  | @killFailed _ site hpc => exact advance_contained (by grind -linarith) rfl false site
  | @foundEmpty site hpc => exact advance_contained (by grind -linarith) rfl true site
  | @foundPopulated _ site hpc => exact advance_contained (by grind -linarith) rfl false site
  | @removeSkipped _ site hpc => exact advance_endCleanup (by grind -linarith) rfl site
  | @removed site hpc => exact advance_endCleanup (by grind -linarith) rfl site
  | @removeFailed _ site hpc =>
    refine advance_endCleanup (by simp [hpc]) ?_ site
    rfl
  | _ => exact .unchanged (by grind -linarith) (by grind -linarith) (by grind -linarith)

end Runner
end OnlineJudge
