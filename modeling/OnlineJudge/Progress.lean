import OnlineJudge.Unblocked
import OnlineJudge.Work

/-!
# No dead end

From every state that a run can reach, `run` can still return: each process that
is not done has a call that the kernel can answer without a fault, or waits for
one that has. And once Child A has ended, the supervisor follows.
-/

namespace OnlineJudge

variable {q : Request} {acts : List Act} {w w' : World} {x : Answer} {a : Act}

/-! ## A call for everybody -/

/-- The runner may still have to `poll` once. -/
def Runner.pollsLeft (r : Runner) : Nat :=
  match r.pc with
  | .setup _ | .receiveHeader | .receivePayload _ => 1
  | .loop | .sendTerminate | .poll _ | .writeStdin | .readStdout | .readStderr =>
    if r.submission_finished then 0 else 1
  | _ => 0

/-- So may the supervisor. -/
def SupervisorPc.pollsLeft : SupervisorPc → Nat
  | unborn | mkdirCgroup | mkdtemp | createPipes _ | fork | openProcs | writeProcs | release
  | send .ready _ | poll => 1
  | _ => 0

attribute [grind =] Runner.pollsLeft SupervisorPc.pollsLeft

/-- The calls that are left at most until `run` returns, when every process is
given its turn and every call the best answer. -/
def World.distance (w : World) : Nat :=
  w.runner.pc.remaining + 9 * w.runner.pollsLeft + w.sup.pc.remaining + 6 * w.sup.pc.pollsLeft +
    w.childA.remaining + w.childB.remaining

/-- The next call of a process brings `run` closer to its return. -/
def Advances (w : World) : Prop :=
  ∃ a w', a.faultless = true ∧ step w a = some w' ∧ w'.distance < w.distance

theorem distance_lt (hl : Lineage w) (h : step w a = some w')
    (hr : w'.runner.pollsLeft + runnerPoll w a ≤ w.runner.pollsLeft)
    (hs : w'.sup.pc.pollsLeft + supervisorPoll w a ≤ w.sup.pc.pollsLeft)
    (hcall : 0 < runnerCall w a + supervisorCall w a + childACall w a + childBCall w a) :
    w'.distance < w.distance := by
  have hrunner := runner_pays h
  have hsup := supervisor_pays hl h
  have hA := childA_pays hl h
  have hB := childB_pays hl h
  simp only [World.distance]
  omega

/-! ### The children -/

theorem advances_childB (hl : Lineage w) (h : (ChildB.step w .ok).isSome = true) :
    Advances w := by
  obtain ⟨w', h⟩ := Option.isSome_iff_exists.1 h
  have hm := ChildB.moves h
  have hstep : step w (.childB .ok) = some w' := h
  exact ⟨.childB .ok, w', rfl, hstep,
    distance_lt hl hstep (by rw [hm.runner]; rfl) (by rw [hm.sup]; rfl) (Nat.zero_lt_succ 0)⟩

theorem advances_childA (hl : Lineage w) (h : (ChildA.step w .ok).isSome = true) :
    Advances w := by
  obtain ⟨w', h⟩ := Option.isSome_iff_exists.1 h
  have hm := ChildA.moves h
  have hstep : step w (.childA .ok) = some w' := h
  exact ⟨.childA .ok, w', rfl, hstep,
    distance_lt hl hstep (by rw [hm.runner]; rfl) (by rw [hm.sup]; rfl) (Nat.zero_lt_succ 0)⟩

/-- A report that can be written or whose reader is gone goes on. -/
theorem ChildB.advances (hu : Unblocked w) (hl : Lineage w) (hB : w.childB.alive = true) :
    Advances w := by
  cases hpc : w.childB with
  | unborn | exited => simp [hpc, alive] at hB
  | setup call rest => exact advances_childB hl (by simp [step, hpc])
  | report writes =>
    cases writes with
    | nil => exact absurd hpc hu.reportingB
    | cons chunk rest =>
      refine advances_childB hl ?_
      simp only [step, hpc, reportStep]
      split <;> rfl
  | running =>
    refine ⟨.submission (.finish 0), { w with childB := .exited 0 }, rfl, ?_, ?_⟩
    · simp [OnlineJudge.step, deedStep, hpc]
    · simp [World.distance, hpc, remaining]

/-- Child A dies of a pending kill. -/
theorem advances_of_killed (hk : w.killed.childA = true) (ha : w.childA.alive = true) :
    Advances w := by
  refine ⟨.die .childA, { w with childA := .exited (signalStatus SIGKILL) }, rfl, ?_, ?_⟩
  · simp [step, dieStep, hk, ha]
  · cases hpc : w.childA <;> simp_all [World.distance, ChildA.remaining, ChildA.alive]

/-- Child A goes on once Child B is done, and unless it waits for a release that
the supervisor is about to make. -/
theorem ChildA.advances (hu : Unblocked w) (hl : Lineage w) (hA : w.childA.alive = true)
    (hB : w.childB.alive = false)
    (hsync : w.sup.holdsSync = true → w.sup.pc = .waitKilledChild) : Advances w := by
  cases hpc : w.childA with
  | unborn | exited => simp [hpc, alive] at hA
  | awaitRelease =>
    by_cases hk : w.sup.pc = .waitKilledChild
    · exact advances_of_killed (hu.shot hk hA) hA
    · have hfree : w.sup.holdsSync = false := by
        by_contra hno
        exact hk (hsync (by simpa using hno))
      refine advances_childA hl ?_
      simp only [step, hpc, hfree]
      split <;> simp
  | setup call rest => exact advances_childA hl (by simp [step, hpc])
  | report onControl writes =>
    cases writes with
    | nil => exact absurd hpc (hu.reportingA onControl)
    | cons chunk rest =>
      refine advances_childA hl ?_
      simp only [step, hpc, reportStep]
      split <;> split <;> rfl
  | fork =>
    by_cases hk : w.killed.childA = true
    · exact advances_of_killed hk hA
    · exact advances_childA hl (by simp [step, hpc, hk])
  | waitB =>
    cases hb : w.childB with
    | unborn => exact absurd hb (hu.awaited hpc)
    | exited b_status => exact advances_childA hl (by simp [step, hpc, waitStep, hb])
    | _ => simp [hb, ChildB.alive] at hB
  | forward b_status writes =>
    cases writes with
    | nil => exact absurd hpc (hu.forwarding b_status)
    | cons chunk rest =>
      refine advances_childA hl ?_
      simp only [step, hpc, forwardStep]
      split <;> rfl
  | closeStatus b_status | leave b_status => exact advances_childA hl (by simp [step, hpc])

/-! ### The supervisor -/

/-- The loop goes round again only while Child A has not ended. -/
theorem Supervisor.Move.pollsLeft_le (hm : Supervisor.Move w x w') (hpoll : w.sup.pc ≠ .poll)
    (hwait : w.sup.pc = .waitNoHang → ∃ s, w.childA = .exited s) :
    w'.sup.pc.pollsLeft ≤ w.sup.pc.pollsLeft := by
  cases hm with
  | @sent caller | @sendFailed _ caller | @openedKill caller | @killWritten caller
  | @killDenied _ caller
  | @killFailed _ caller | @removed caller | @removeBusy caller | @removeDenied caller
  | @removeFailed caller =>
    cases caller <;> grind -linarith
  | gotControl =>
    rcases w.sup.handleControl_cases
      (.ofBytes (w.toSup.pending.take headerSize)) with he | ⟨he, -⟩ | ⟨he, -⟩ | ⟨he, -⟩ <;>
      simp only [he] <;> grind -linarith
  | @gotStatus r => cases r <;> grind -linarith
  | waitedA site | waitAFailed site => cases site <;> grind -linarith
  | _ => grind -linarith

theorem advances_supervisor (hl : Lineage w) (hx : (Act.supervisor x).faultless = true)
    (hpoll : w.sup.pc ≠ .poll) (hwait : w.sup.pc = .waitNoHang → ∃ s, w.childA = .exited s)
    (h : (Supervisor.step w x).isSome = true) : Advances w := by
  obtain ⟨w', h⟩ := Option.isSome_iff_exists.1 h
  have hm := Supervisor.moves h
  have hstep : step w (.supervisor x) = some w' := h
  have hcall : x.interrupted = false := by
    cases x with
    | fail e => cases hx
    | _ => rfl
  refine ⟨.supervisor x, w', hx, hstep, distance_lt hl hstep ?_ ?_ ?_⟩
  · rw [hm.runner]; rfl
  · rw [show supervisorPoll w (.supervisor x) = 0 from if_neg hpoll]
    exact hm.pollsLeft_le hpoll hwait
  · simp [runnerCall, supervisorCall, hcall]

/-- Up to the release of Child A, and when it has to kill it, the supervisor
waits for nobody. -/
theorem Supervisor.advances_early (hl : Lineage w)
    (hearly : w.sup.pc.phase = .before ∧ w.sup.pc ≠ .unborn ∨ w.sup.pc.phase = .attaching ∨
      w.sup.pc = .killChild) : Advances w := by
  have ok (hpoll : w.sup.pc ≠ .poll) (hwait : w.sup.pc ≠ .waitNoHang)
      (h : (Supervisor.step w .ok).isSome = true) : Advances w :=
    advances_supervisor hl rfl hpoll (fun hpc => absurd hpc hwait) h
  cases hpc : w.sup.pc with
  | mkdirCgroup => exact ok (by simp [hpc]) (by simp [hpc]) (by simp [step, hpc, mkdirCgroup])
  | mkdtemp => exact ok (by simp [hpc]) (by simp [hpc]) (by simp [step, hpc])
  | createPipes n => exact ok (by simp [hpc]) (by simp [hpc]) (by simp [step, hpc])
  | fork =>
    exact advances_supervisor (x := .count 1) hl rfl (by simp [hpc]) (by simp [hpc])
      (by simp [step, hpc])
  | openProcs => exact ok (by simp [hpc]) (by simp [hpc]) (by simp [step, hpc, openProcs])
  | writeProcs =>
    refine ok (by simp [hpc]) (by simp [hpc]) ?_
    simp only [step, hpc, writeProcs]
    split <;> rfl
  | release =>
    refine ok (by simp [hpc]) (by simp [hpc]) ?_
    simp only [step, hpc]
    split <;> rfl
  | killChild => exact ok (by simp [hpc]) (by simp [hpc]) (by simp [step, hpc, killA])
  | send caller | openKill caller | writeKill caller | removeCgroup caller =>
    cases caller <;> simp [hpc, SupervisorPc.phase] at hearly
  | _ => simp [hpc, SupervisorPc.phase] at hearly

theorem ChildA.exited_of_dead (hne : w.childA ≠ .unborn) (ha : w.childA.alive = false) :
    ∃ s, w.childA = .exited s := by
  cases hpc : w.childA with
  | unborn => exact absurd hpc hne
  | exited s => exact ⟨s, rfl⟩
  | _ => simp [hpc, alive] at ha

/-- A pipe without writers always has an answer. -/
theorem isSome_nextRecord (pending : List Byte) : (nextRecord pending true).isSome = true := by
  cases pending with
  | nil => rfl
  | cons first rest =>
    simp only [nextRecord]
    split
    · split <;> rfl
    · split <;> rfl

theorem Supervisor.isSome_waitA {s : Word32} {yes no : Supervisor} (ha : w.childA = .exited s) :
    (waitA w yes no (.reap .zero)).isSome = true := by
  simp only [waitA, ha]
  split <;> rfl

/-- With both children gone, the supervisor has nothing to wait for. -/
theorem Supervisor.advances (hu : Unblocked w) (hl : Lineage w) (hS : w.sup.alive = true)
    (hearly : ¬ (w.sup.pc.phase = .before ∧ w.sup.pc ≠ .unborn ∨ w.sup.pc.phase = .attaching ∨
      w.sup.pc = .killChild))
    (hA : w.childA.alive = false) (hB : w.childB.alive = false) : Advances w := by
  have hstarted (hp : w.sup.pc.phase = .started) : ∃ s, w.childA = .exited s :=
    ChildA.exited_of_dead (hl.born (.inr hp)) hA
  have htended (hp : w.sup.pc.tending = true) : ∃ s, w.childA = .exited s :=
    ChildA.exited_of_dead (hu.tending hp) hA
  have hunpopulated : w.populated = false := by simp [World.populated, hA, hB]
  have ok (hpoll : w.sup.pc ≠ .poll) (hwait : w.sup.pc ≠ .waitNoHang)
      (h : (Supervisor.step w .ok).isSome = true) : Advances w :=
    advances_supervisor hl rfl hpoll (fun hpc => absurd hpc hwait) h
  cases hpc : w.sup.pc with
  | unborn | exited => simp [hpc, alive] at hS
  | mkdirCgroup | mkdtemp | createPipes | fork | openProcs | writeProcs | release | killChild =>
    simp [hpc, SupervisorPc.phase] at hearly
  | waitKilledChild | failureWait =>
    obtain ⟨s, ha⟩ := htended (by rw [hpc]; rfl)
    exact advances_supervisor hl rfl (by simp [hpc]) (by simp [hpc])
      (by simp only [step, hpc]; exact isSome_waitA ha)
  | waitFailed failure =>
    obtain ⟨s, ha⟩ := hstarted (by rw [hpc]; rfl)
    exact advances_supervisor hl rfl (by simp [hpc]) (by simp [hpc])
      (by simp only [step, hpc]; exact isSome_waitA ha)
  | send caller writes =>
    cases writes with
    | nil => exact absurd hpc (hu.sending caller)
    | cons chunk rest =>
      refine ok (by simp [hpc]) (by simp [hpc]) ?_
      simp only [step, hpc, send]
      split <;> rfl
  | poll =>
    have hstep : OnlineJudge.step w (.supervisor (.ready false false)) =
        some { w with sup := { w.sup with status_ready := false }.afterControl } := by
      simp [OnlineJudge.step, step, hpc]
    refine ⟨_, _, rfl, hstep, distance_lt hl hstep ?_ ?_ (Nat.zero_lt_succ 0)⟩
    · rfl
    · simp [supervisorPoll, hpc, afterControl, go, SupervisorPc.pollsLeft]
  | readControl =>
    refine ok (by simp [hpc]) (by simp [hpc]) ?_
    simp only [step, hpc, readControl]
    split
    · rfl
    · rename_i hshort
      have hclosed : w.runner.control_open = false := by
        refine (hu.order hpc).resolve_left fun hne => hshort ?_
        exact Nat.le_of_dvd (List.length_pos_iff.2 hne) hu.orders
      simp [hclosed]
  | openKill caller =>
    refine ok (by simp [hpc]) (by simp [hpc]) ?_
    simp only [step, hpc, openKill]
    split <;> rfl
  | writeKill caller =>
    refine ok (by simp [hpc]) (by simp [hpc]) ?_
    simp only [step, hpc, writeKill]
    split <;> rfl
  | readStatus =>
    have hwriter : w.statusWriter = false := by
      cases ha : w.childA <;> cases hb : w.childB <;>
        simp_all [World.statusWriter, ChildA.holdsStatus, ChildA.alive, ChildB.beforeExec,
          ChildB.alive]
    refine ok (by simp [hpc]) (by simp [hpc]) ?_
    simp [step, hpc, readStatus, hwriter, isSome_nextRecord]
  | waitNoHang =>
    obtain ⟨s, ha⟩ := hstarted (by rw [hpc]; rfl)
    refine advances_supervisor (x := .reap .zero) hl rfl (by simp [hpc]) (fun _ => ⟨s, ha⟩) ?_
    simp only [step, hpc, waitNoHang, ha]
    split <;> rfl
  | removeCgroup caller retries =>
    exact ok (by simp [hpc]) (by simp [hpc]) (by simp [step, hpc, removeCgroup, hunpopulated])
  | failureKill => exact ok (by simp [hpc]) (by simp [hpc]) (by simp [step, hpc, killA])

/-! ### The runner -/

/-- The loop polls again only while nothing terminal has come. -/
theorem Runner.Move.pollsLeft_le (hm : Runner.Move w x w') (hord : w.runner.Ordered)
    (hpoll : ∀ timeout, w.runner.pc ≠ .poll timeout) :
    w'.runner.pollsLeft ≤ w.runner.pollsLeft := by
  cases hm with
  | got site | lost site => cases site <;> grind -linarith
  | sent site | sendFailed site => cases site <;> grind -linarith
  | waited site | waitFailed site =>
    cases site with
    | @cleanup site => rcases site with _ | _ | _ | _ <;> grind -linarith
    | terminated hpc =>
      have := hord.settling hpc
      grind -linarith
    | _ => grind -linarith
  | @killFailed _ site | @foundEmpty site | @foundPopulated _ site | @removeSkipped _ site
  | @removed site | @removeFailed _ site =>
    rcases site with _ | _ | _ | _ <;> grind -linarith
  | _ => grind -linarith

theorem advances_runner (hl : Lineage w) (hord : w.runner.Ordered)
    (hx : (Act.runner x).faultless = true) (hpoll : ∀ timeout, w.runner.pc ≠ .poll timeout)
    (h : (Runner.step w x).isSome = true) : Advances w := by
  obtain ⟨w', h⟩ := Option.isSome_iff_exists.1 h
  have hm := Runner.moves h
  have hstep : step w (.runner x) = some w' := h
  have hcall : x.interrupted = false := by
    cases x with
    | fail e => cases hx
    | _ => rfl
  have hnone : runnerPoll w (.runner x) = 0 := by simp [runnerPoll]
  refine ⟨.runner x, w', hx, hstep, distance_lt hl hstep ?_ ?_ ?_⟩
  · rw [hnone]
    exact hm.pollsLeft_le hord hpoll
  · rcases hm.sup with hs | ⟨hpc, -, hs⟩
    · rw [hs]
      exact Nat.le_refl _
    · rw [hs, hl.unforked hpc]
      exact Nat.le_refl 1
  · simp [runnerCall, hcall]

theorem Runner.isSome_readControl {size : Nat} {yes : List Byte → Runner} {no : Runner}
    (hpeer : w.controlPeer = false) : (readControl w size yes no .ok).isSome = true := by
  simp only [readControl, hpeer]
  split <;> rfl

theorem Runner.isSome_sendTerminate {yes no : Runner} :
    (sendTerminate w yes no .ok).isSome = true := by
  simp only [sendTerminate]
  split <;> rfl

theorem Runner.isSome_waitSupervisor {s : Word32} {yes no : Runner} (hs : w.sup.pc = .exited s) :
    (waitSupervisor w yes no .ok).isSome = true := by
  simp only [waitSupervisor, hs]
  split <;> rfl

/-- The most that a `read` can give now. -/
def readable (pending : List Byte) : Nat := min ioBufferSize pending.length

theorem Runner.readCount_readable (pending : List Byte) :
    readCount pending true (readable pending) = true := by
  cases pending with
  | nil => rfl
  | cons b rest =>
    simp [readCount, readable, ioBufferSize]

/-- Alone in the world, the runner has nothing to wait for. -/
theorem Runner.advances (hu : Unblocked w) (hl : Lineage w) (hord : w.runner.Ordered)
    (hpc' : w.runner.pc ≠ .returned) (hS : ∃ s, w.sup.pc = .exited s)
    (hA : w.childA.alive = false) (hB : w.childB.alive = false) : Advances w := by
  obtain ⟨s, hs⟩ := hS
  have hsup : w.sup.alive = false := by simp [Supervisor.alive, hs]
  have habandoned : w.abandoned = true := by simp [World.abandoned, hsup, hA, hB]
  have hunpopulated : w.populated = false := by simp [World.populated, hA, hB]
  have hpeer : w.controlPeer = false := by
    cases hb : w.childB <;> simp_all [World.controlPeer, ChildB.beforeExec, ChildB.alive]
  have ok (hpoll : ∀ timeout, w.runner.pc ≠ .poll timeout)
      (h : (Runner.step w .ok).isSome = true) : Advances w := advances_runner hl hord rfl hpoll h
  cases hpc : w.runner.pc with
  | returned => exact absurd hpc hpc'
  | setup n =>
    refine ok (by simp [hpc]) ?_
    simp only [step, hpc, setup]
    split <;> rfl
  | receiveHeader | receivePayload | readHeader | readSetupFailed | readTerminated =>
    exact ok (by simp [hpc]) (by simp only [step, hpc]; exact isSome_readControl hpeer)
  | reapFailed | finishSetupFailed | finishTerminated | reapSupervisor | waitSupervisor =>
    exact ok (by simp [hpc]) (by simp only [step, hpc]; exact isSome_waitSupervisor hs)
  | loop => exact ok (by simp [hpc]) (by simp [step, hpc, loopHead])
  | sendTerminate | cleanupTerminate =>
    exact ok (by simp [hpc]) (by simp only [step, hpc]; exact isSome_sendTerminate)
  | poll timeout =>
    have hunfinished : w.runner.submission_finished = false := by
      by_contra hno
      have hfin := hord.finishing (by simpa using hno)
      simp [hpc] at hfin
    have hopen : w.runner.control_open = true :=
      (hu.hearing (by rw [hpc]; rfl)).resolve_right (by simp [hunfinished])
    have hstep : OnlineJudge.step w (.runner (.events { control := true })) =
        some { w with runner := { w.runner with revents := { control := true } }.afterPoll } := by
      simp [OnlineJudge.step, step, hpc, poll, hpeer]
    refine ⟨_, _, rfl, hstep, distance_lt hl hstep ?_ (Nat.le_refl _) (Nat.zero_lt_succ 0)⟩
    simp [runnerPoll, hpc, afterPoll, hopen, go, pollsLeft, hunfinished]
  | writeStdin =>
    exact advances_runner (x := .count 1) hl hord rfl (by simp [hpc])
      (by simp [step, hpc, writeStdin, habandoned])
  | readStdout =>
    refine advances_runner (x := .count (readable w.stdout.pending)) hl hord rfl (by simp [hpc]) ?_
    simp [step, hpc, readStdout, habandoned, readCount_readable]
  | readStderr =>
    refine advances_runner (x := .count (readable w.stderr.pending)) hl hord rfl (by simp [hpc]) ?_
    simp [step, hpc, readStderr, habandoned, readCount_readable]
  | cleanupNoHang use tries =>
    refine ok (by simp [hpc]) ?_
    simp only [step, hpc, cleanupNoHang, hs]
    split <;> rfl
  | killSupervisor site => exact ok (by simp [hpc]) (by simp [step, hpc, killSupervisor])
  | openKill site => exact ok (by simp [hpc]) (by simp [step, hpc, openKill])
  | writeKill site =>
    refine ok (by simp [hpc]) ?_
    simp only [step, hpc, writeKill]
    split <;> rfl
  | checkEmpty site tries =>
    exact ok (by simp [hpc]) (by simp [step, hpc, checkEmpty, isExecutionCgroupEmpty])
  | lastCheck site =>
    exact ok (by simp [hpc]) (by simp [step, hpc, lastCheck, isExecutionCgroupEmpty])
  | accessCgroup site => exact ok (by simp [hpc]) (by simp [step, hpc, accessCgroup])
  | removeCgroup site =>
    exact ok (by simp [hpc]) (by simp [step, hpc, removeCgroup, hunpopulated])

/-! ## Back home -/

/-- Somebody can move, unless `run` has returned. -/
theorem advances (hu : Unblocked w) (hl : Lineage w) (hord : w.runner.Ordered)
    (hpc : w.runner.pc ≠ .returned) : Advances w := by
  by_cases hsetup : ∃ n, w.runner.pc = .setup n
  · obtain ⟨n, hn⟩ := hsetup
    refine advances_runner (x := .ok) hl hord rfl (by simp [hn]) ?_
    simp only [Runner.step, hn, Runner.setup]
    split <;> rfl
  have hborn : w.sup.pc ≠ .unborn := fun h => (hu.forked h).elim hsetup hpc
  by_cases hearly : w.sup.pc.phase = .before ∧ w.sup.pc ≠ .unborn ∨
      w.sup.pc.phase = .attaching ∨ w.sup.pc = .killChild
  · exact Supervisor.advances_early hl hearly
  cases hB : w.childB.alive with
  | true => exact ChildB.advances hu hl hB
  | false =>
    cases hA : w.childA.alive with
    | true =>
      refine ChildA.advances hu hl hA hB fun hsync => ?_
      cases hs : w.sup.pc <;> simp_all [Supervisor.holdsSync, SupervisorPc.phase]
    | false =>
      cases hS : w.sup.alive with
      | true => exact Supervisor.advances hu hl hS hearly hA hB
      | false =>
        refine Runner.advances hu hl hord hpc ?_ hA hB
        cases hs : w.sup.pc <;> simp_all [Supervisor.alive]

/-- Nobody is farther from its end than at its start. -/
structure Near (w : World) : Prop where
  runner : w.runner.pc.remaining ≤ 221
  sup : w.sup.pc.remaining ≤ 22
  childA : w.childA.remaining ≤ 18
  childB : w.childB.remaining ≤ 18

theorem Runner.Ordered.keep (h : w.runner.Ordered) (hm : OnlineJudge.Move w a w') :
    w'.runner.Ordered := by
  rcases hm.runner_cases with ⟨x, -, hm⟩ | hr
  · exact h.move hm
  · rw [hr]; exact h

theorem runnerPoll_cases (w : World) (a : Act) :
    runnerPoll w a = 0 ∨ runnerPoll w a = 1 ∧ w.runner.pc.remaining = 211 := by
  cases a with
  | runner x =>
    cases hpc : w.runner.pc with
    | poll timeout => exact .inr ⟨by simp only [runnerPoll, hpc], rfl⟩
    | _ => exact .inl (by simp only [runnerPoll, hpc])
  | _ => exact .inl rfl

theorem supervisorPoll_cases (w : World) (a : Act) :
    supervisorPoll w a = 0 ∨ supervisorPoll w a = 1 ∧ w.sup.pc.remaining = 10 := by
  cases a with
  | supervisor x =>
    by_cases hpc : w.sup.pc = .poll
    · exact .inr ⟨if_pos hpc, by rw [hpc]; rfl⟩
    · exact .inl (if_neg hpc)
  | _ => exact .inl rfl

theorem Near.keep (h : Near w) (hl : Lineage w) (ht : step w a = some w') : Near w' := by
  obtain ⟨hr, hs, hA, hB⟩ := h
  constructor
  · have := runner_pays ht
    rcases runnerPoll_cases w a with hp | ⟨hp, hpc⟩ <;> omega
  · have := supervisor_pays hl ht
    rcases supervisorPoll_cases w a with hp | ⟨hp, hpc⟩ <;> omega
  · have := childA_pays hl ht
    omega
  · have := childB_pays hl ht
    omega

theorem Near.init (q : Request) : Near (.init q) := by
  constructor <;> simp [World.init, RunnerPc.remaining, SupervisorPc.remaining,
    ChildA.remaining, ChildB.remaining]

/-- What every run keeps in which the kill of `cleanup_failed_child` succeeds. -/
structure Going (w : World) : Prop where
  unblocked : Unblocked w
  lineage : Lineage w
  ordered : w.runner.Ordered
  near : Near w

theorem Going.keep (h : Going w) (hspare : spares w a = false) (ht : step w a = some w') :
    Going w' := by
  obtain ⟨hu, hl, hord, hnear⟩ := h
  have hm := moves_step ht
  exact ⟨hu.keep hl hord hspare hm, hl.keep hm, hord.keep hm, hnear.keep hl ht⟩

theorem Going.init (q : Request) : Going (.init q) :=
  ⟨.init q, .init q, .elsewhere rfl (by simp [World.init]), .init q⟩

theorem Going.reach (h : Runs q acts w)
    (hspare : Machine.Along step (fun w a => spares w a = false) (.init q) acts) : Going w :=
  Machine.run_invariant (fun _ _ _ hs hw ht => hw.keep hs ht) (Going.init q) hspare h

theorem Runner.pollsLeft_le_one (r : Runner) : r.pollsLeft ≤ 1 := by
  grind -linarith

theorem SupervisorPc.pollsLeft_le_one (pc : SupervisorPc) : pc.pollsLeft ≤ 1 := by
  unfold pollsLeft
  split <;> simp

theorem Near.distance_le (h : Near w) : w.distance ≤ 294 := by
  obtain ⟨hr, hs, hA, hB⟩ := h
  have hrp := w.runner.pollsLeft_le_one
  have hsp := w.sup.pc.pollsLeft_le_one
  simp only [World.distance]
  omega

theorem spares_of_faultless (h : a.faultless = true) : spares w a = false := by
  cases a with
  | supervisor x =>
    cases x with
    | fail e => cases h
    | _ => rfl
  | _ => rfl

/-- No dead end. However the calls were answered so far, and however the
processes were scheduled, no further fault and at most 294 more steps bring `run`
to its return, as long as no kill of `cleanup_failed_child` has failed. -/
theorem run_can_return (h : Runs q acts w)
    (hspare : Machine.Along step (fun w a => spares w a = false) (.init q) acts) :
    ∃ more w', Runs q (acts ++ more) w' ∧ w'.runner.pc = .returned ∧
      (∀ a ∈ more, a.faultless = true) ∧ more.length ≤ 294 := by
  have hgoing := Going.reach h hspare
  have descend : ∀ s, Going s → s.runner.pc ≠ .returned →
      ∃ a t, a.faultless = true ∧ step s a = some t ∧ Going t ∧ t.distance < s.distance := by
    intro s hs hpc
    obtain ⟨a, t, ha, ht, hlt⟩ := advances hs.unblocked hs.lineage hs.ordered hpc
    exact ⟨a, t, ha, ht, hs.keep (spares_of_faultless ha) ht, hlt⟩
  obtain ⟨more, w', hrun, hpc, hall, hlen⟩ := Machine.run_to_goal descend hgoing
  refine ⟨more, w', ?_, hpc, hall, Nat.le_trans hlen hgoing.near.distance_le⟩
  unfold Runs at h ⊢
  rw [Machine.run_append, h]
  exact hrun

/-- As in the middle of a submission. -/
theorem run_can_return_booted :
    ∃ w, Runs ⟨[], 1000, 0⟩ boot w ∧ ∃ more w', Runs ⟨[], 1000, 0⟩ (boot ++ more) w' ∧
      w'.runner.pc = .returned ∧ (∀ a ∈ more, a.faultless = true) ∧ more.length ≤ 294 := by
  have hrun : ∃ w, Runs ⟨[], 1000, 0⟩ boot w ∧ w.childB = .running :=
    exists_run (by decide +kernel)
  obtain ⟨w, hw, -⟩ := hrun
  exact ⟨w, hw, run_can_return hw (by decide +kernel)⟩

/-! ## After Child A -/

/-- From a `poll` the supervisor goes on, or fails. -/
theorem Supervisor.Move.of_poll (hm : Supervisor.Move w x w') (hpc : w.sup.pc = .poll) :
    x.interrupted = true ∧ w' = w ∨ w'.sup.pc.pollsLeft = 0 := by
  cases hm with
  | again => exact .inl ⟨rfl, rfl⟩
  | waitedA site | waitAFailed site => cases site <;> simp_all
  | @polled control => exact .inr (by cases control <;> grind -linarith)
  | loopFailed => exact .inr (by grind -linarith)
  | _ => simp_all

theorem ChildA.exited_iff {c : ChildA} : (∃ s, c = .exited s) ↔ c.remaining = 0 := by
  cases c <;> simp [remaining]

theorem ended_keep (hl : Lineage w) (ha : ∃ s, w.childA = .exited s) (ht : step w a = some w') :
    ∃ s, w'.childA = .exited s := by
  rw [ChildA.exited_iff] at ha ⊢
  have := childA_pays hl ht
  omega

/-- Once Child A has ended, the supervisor polls at most once more. -/
theorem supervisor_pays_ended (hl : Lineage w) (ha : ∃ s, w.childA = .exited s)
    (ht : step w a = some w') :
    supervisorCall w a + (w'.sup.pc.remaining + 6 * w'.sup.pc.pollsLeft) ≤
      w.sup.pc.remaining + 6 * w.sup.pc.pollsLeft := by
  have hpay := supervisor_pays hl ht
  have hquiet (hs : w'.sup.pc.pollsLeft ≤ w.sup.pc.pollsLeft) (hp : supervisorPoll w a = 0) :
      supervisorCall w a + (w'.sup.pc.remaining + 6 * w'.sup.pc.pollsLeft) ≤
        w.sup.pc.remaining + 6 * w.sup.pc.pollsLeft := by omega
  cases a with
  | supervisor x =>
    have hm := Supervisor.moves ht
    by_cases hpc : w.sup.pc = .poll
    · rcases hm.of_poll hpc with ⟨hx, rfl⟩ | hnone
      · simp [supervisorCall, hx]
      · have hone : supervisorPoll w (.supervisor x) = 1 := if_pos hpc
        have hleft : w.sup.pc.pollsLeft = 1 := by rw [hpc]; rfl
        omega
    · exact hquiet (hm.pollsLeft_le hpc fun _ => ha) (if_neg hpc)
  | runner x =>
    refine hquiet ?_ rfl
    rcases (Runner.moves ht).sup with hs | ⟨hpc, -, hs⟩
    · rw [hs]
    · rw [hs, hl.unforked hpc]
      exact Nat.le_refl 1
  | die p =>
    refine hquiet ?_ rfl
    cases moves_step ht <;> simp [Supervisor.go, SupervisorPc.pollsLeft]
  | _ =>
    have hs : w'.sup = w.sup := by cases moves_step ht <;> grind -linarith
    exact hquiet (by rw [hs]) rfl

theorem Near.reach (h : Runs q acts w) : Lineage w ∧ Near w :=
  Machine.run_keeps (I := fun w => Lineage w ∧ Near w)
    (fun _ _ _ hw ht => ⟨hw.1.keep (moves_step ht), hw.2.keep hw.1 ht⟩) ⟨.init q, .init q⟩ h

/-- The supervisor does not outlive Child A for long: once Child A has ended, in
whatever way, at most 28 calls are left to the supervisor, however they are
answered and whatever the other processes do. -/
theorem supervisor_follows (h : Runs q acts w) (ha : ∃ s, w.childA = .exited s)
    (more : List Act) : Machine.tally step supervisorCall w more ≤ 28 := by
  obtain ⟨hl, hnear⟩ := Near.reach h
  have keep : ∀ s a t, Lineage s ∧ (∃ n, s.childA = .exited n) → step s a = some t →
      Lineage t ∧ ∃ n, t.childA = .exited n :=
    fun s a t hs ht => ⟨hs.1.keep (moves_step ht), ended_keep hs.1 hs.2 ht⟩
  have pay : ∀ s a t, Lineage s ∧ (∃ n, s.childA = .exited n) → step s a = some t →
      supervisorCall s a + (t.sup.pc.remaining + 6 * t.sup.pc.pollsLeft) ≤
        s.sup.pc.remaining + 6 * s.sup.pc.pollsLeft + 0 * supervisorCall s a := by
    intro s a t hs ht
    have := supervisor_pays_ended hs.1 hs.2 ht
    omega
  have hle : Machine.tally step supervisorCall w more ≤ _ := Machine.tally_le keep pay ⟨hl, ha⟩
  rw [Machine.tally_mul] at hle
  have hsup := hnear.sup
  have hpolls := w.sup.pc.pollsLeft_le_one
  omega

/-- As after the submission has ended and Child A has mirrored its end. -/
theorem supervisor_follows_mirror :
    ∃ w, Runs ⟨[], 1000, 0⟩
        (boot ++ [Act.submission (.finish 0)] ++ List.replicate 5 (Act.childA .ok)) w ∧
      ∀ more, Machine.tally step supervisorCall w more ≤ 28 := by
  have hrun : ∃ w, Runs ⟨[], 1000, 0⟩
      (boot ++ [Act.submission (.finish 0)] ++ List.replicate 5 (Act.childA .ok)) w ∧
        w.childA = .exited 0 :=
    exists_run (by decide +kernel)
  obtain ⟨w, hw, ha⟩ := hrun
  exact ⟨w, hw, fun more => supervisor_follows hw ⟨0, ha⟩ more⟩

end OnlineJudge
