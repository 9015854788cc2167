import OnlineJudge.Deadline
import OnlineJudge.Submission

/-!
# The report

What `run` returns of an execution that was not let down is made of what
`Terminated` says of its end and its usage, of the time at which the runner settles
it, and of what the runner took from the pipes.
-/

namespace OnlineJudge

variable {q : Request} {acts : List Act} {w w' : World} {x : Answer} {a : Act}

/-! ## The result -/

/-- What is to be published of an execution that ended with this status and usage,
`elapsed` nanoseconds after its start, and that wrote these bytes. -/
def ExecutionResult.report (exceeded : Bool) (elapsed : Int) (status : Word32) (usage : Rusage)
    (out err : List Byte) : ExecutionResult where
  status := if exceeded then .timedOut else if WIFSIGNALED status then .signaled else .completed
  state := if exceeded then .timedOut else if WIFSIGNALED status then .signaled else .finished
  exit_code := if WIFEXITED status then WEXITSTATUS status else 1
  stdout_output := out
  stderr_output := err
  wall_time := elapsed.tdiv 1000000
  cpu_time := usage.microseconds 0 + usage.microseconds 2
  memory_usage_bytes := (usage.words.getD 4 0).toNat * 1024 % 2 ^ 64
  terminated_by_signal := WIFSIGNALED status
  wall_time_limit_exceeded := exceeded
  signal_number := if WIFSIGNALED status then WTERMSIG status else 0

/-- The result before `Terminated` is settled. -/
def ExecutionResult.unsettled (exceeded : Bool) : ExecutionResult :=
  { state := .created, wall_time_limit_exceeded := exceeded }

/-- The result once it is settled at `now`. -/
def Runner.settledAt (r : Runner) (now : Int) : ExecutionResult :=
  ((ExecutionResult.unsettled r.result.wall_time_limit_exceeded).finalizeResourceUsage r.start_time
    now r.usage).finalizeStatus r.status

/-- The lambdas at the end of `run` and its classification make the report. -/
theorem ExecutionResult.classify_settled (exceeded : Bool) (start_time now : Int)
    (status : Word32) (usage : Rusage) (out err : List Byte) :
    { (((ExecutionResult.unsettled exceeded).finalizeResourceUsage start_time now
        usage).finalizeStatus status).classify status with
      stdout_output := out, stderr_output := err } =
      ExecutionResult.report exceeded (now - start_time) status usage out err := by
  unfold unsettled finalizeResourceUsage finalizeStatus classify report
  cases hexited : WIFEXITED status
  · cases hsignaled : WIFSIGNALED status <;> cases exceeded <;> simp
  · rw [not_signaled_of_exited hexited]
    cases exceeded <;> simp

/-! ## What the runner carries -/

namespace Runner

/-- A move takes over what `Terminated` says, or leaves it alone. -/
theorem Move.told (hm : Move w x w') (h : w.runner.Ordered) :
    w'.runner.submission_finished = w.runner.submission_finished ∧
        w'.runner.status = w.runner.status ∧ w'.runner.usage = w.runner.usage ∧
        (w.runner.submission_finished = true → w'.runner.decoded = w.runner.decoded) ∨
      w.runner.pc = .readTerminated ∧ ∃ payload : List Byte,
        w'.runner.decoded = w.runner.decoded ++ [(SandboxMessageType.terminated.code, payload)] ∧
        w'.runner.status = (SandboxTerminatedPayload.ofBytes payload).wait_status ∧
        w'.runner.usage = (SandboxTerminatedPayload.ofBytes payload).usage := by
  have hfinishing := h.finishing
  clear h
  cases hm with
  | got site =>
    cases site with
    | terminated hpc => exact .inr ⟨hpc, _, rfl, rfl, rfl⟩
    | _ => exact .inl (by grind -linarith)
  | lost site => exact .inl (by cases site <;> grind -linarith)
  | sent site | sendFailed site => exact .inl (by cases site <;> grind -linarith)
  | waited site | waitFailed site =>
    cases site with
    | @cleanup site hpc => exact .inl (by rcases site with _ | _ | _ | _ <;> grind -linarith)
    | _ => exact .inl (by grind -linarith)
  | @killFailed _ site | @foundEmpty site | @foundPopulated _ site | @removeSkipped _ site
  | @removed site | @removeFailed _ site =>
    exact .inl (by rcases site with _ | _ | _ | _ <;> grind -linarith)
  | _ => exact .inl (by grind -linarith)

/-- Only the fork sets the start time and the deadline. -/
theorem Move.schedule_eq (hm : Move w x w') (h : ∀ n, w.runner.pc ≠ .setup n) :
    w'.runner.start_time = w.runner.start_time ∧ w'.runner.deadline = w.runner.deadline := by
  cases hm with
  | forked hpc => exact absurd hpc (h _)
  | got site | lost site => cases site <;> grind -linarith
  | sent site | sendFailed site => cases site <;> grind -linarith
  | waited site | waitFailed site =>
    cases site with
    | @cleanup site => rcases site with _ | _ | _ | _ <;> grind -linarith
    | _ => grind -linarith
  | @killFailed _ site | @foundEmpty site | @foundPopulated _ site | @removeSkipped _ site
  | @removed site | @removeFailed _ site =>
    rcases site with _ | _ | _ | _ <;> grind -linarith
  | _ => grind -linarith

/-- The deadline branch is entered at the deadline. -/
theorem Move.to_sendTerminate (hm : Move w x w') (h : w'.runner.pc = .sendTerminate) :
    w' = w ∨ w.runner.pc = .loop ∧ w.runner.deadline ≤ w.clock := by
  cases hm with
  | again => exact .inl rfl
  | looped hpc =>
    refine .inr ⟨hpc, ?_⟩
    grind -linarith
  | got site | lost site => exact absurd h (by cases site <;> grind -linarith)
  | sent site | sendFailed site => exact absurd h (by cases site <;> grind -linarith)
  | waited site | waitFailed site =>
    refine absurd h ?_
    cases site with
    | @cleanup site => rcases site with _ | _ | _ | _ <;> grind -linarith
    | _ => grind -linarith
  | @killFailed _ site | @foundEmpty site | @foundPopulated _ site | @removeSkipped _ site
  | @removed site | @removeFailed _ site =>
    exact absurd h (by rcases site with _ | _ | _ | _ <;> grind -linarith)
  | _ => exact absurd h (by grind -linarith)

/-- `Terminated` is settled by the clock. -/
theorem Move.settles (hm : Move w x w') (hpc : w.runner.pc = .finishTerminated)
    (hpc' : w'.runner.pc = .loop) :
    w'.runner.result = (w.runner.result.finalizeResourceUsage w.runner.start_time w.clock
      w.runner.usage).finalizeStatus w.runner.status := by
  cases hm with
  | again => simp [hpc] at hpc'
  | got site | lost site => cases site <;> simp_all
  | sent site | sendFailed site => cases site <;> simp_all
  | waited site => cases site <;> first | rfl | simp_all
  | waitFailed site =>
    cases site with
    | terminated => cases hpc'
    | _ => simp_all
  | _ => simp_all

end Runner

/-- What `run` knows of the end before it returns, and what it returns then. -/
structure Findings (q : Request) (w : World) : Prop where
  ordered : w.runner.Ordered
  due : w.runner.pc = .sendTerminate → w.runner.deadline ≤ w.clock
  late : w.runner.result.wall_time_limit_exceeded = true → (∀ n, w.runner.pc ≠ .setup n) ∧
    w.runner.deadline = deadlineOf w.runner.start_time q.wall_limit ∧ w.runner.deadline ≤ w.clock
  told : w.runner.submission_finished = true → ∃ (before : List (Word32 × List Byte))
    (payload : List Byte),
      w.runner.decoded = before ++ [(SandboxMessageType.terminated.code, payload)] ∧
      w.runner.status = (SandboxTerminatedPayload.ofBytes payload).wait_status ∧
      w.runner.usage = (SandboxTerminatedPayload.ofBytes payload).usage
  fresh : w.runner.pc ≠ .returned → ¬ (w.runner.pc = .loop ∧ w.runner.submission_finished = true) →
    w.runner.result = .unsettled w.runner.result.wall_time_limit_exceeded
  settled : w.runner.pc = .loop → w.runner.submission_finished = true → ∃ now,
    w.runner.start_time ≤ now ∧ now ≤ w.clock ∧
      (w.runner.result.wall_time_limit_exceeded = true → w.runner.deadline ≤ now) ∧
      w.runner.result = w.runner.settledAt now
  returned : w.runner.pc = .returned → w.runner.result.status.infrastructure = false → ∃ now,
    w.runner.submission_finished = true ∧ w.runner.start_time ≤ now ∧ now ≤ w.clock ∧
      (w.runner.result.wall_time_limit_exceeded = true → w.runner.deadline ≤ now) ∧
      w.runner.result = .report w.runner.result.wall_time_limit_exceeded
        (now - w.runner.start_time) w.runner.status w.runner.usage w.runner.stdout_output
        w.runner.stderr_output

namespace Findings

@[simp] theorem exceeded_settledAt (r : Runner) (now : Int) :
    (r.settledAt now).wall_time_limit_exceeded = r.result.wall_time_limit_exceeded := by
  unfold Runner.settledAt ExecutionResult.finalizeStatus
  split
  · rfl
  · split <;> rfl

@[simp] theorem status_settledAt (r : Runner) (now : Int) :
    (r.settledAt now).status = .runnerFailure := by
  unfold Runner.settledAt ExecutionResult.finalizeStatus
  split
  · rfl
  · split <;> rfl

/-- A result that is not returned yet has the status it began with. -/
theorem running (h : Findings q w) (hpc : w.runner.pc ≠ .returned) :
    w.runner.result.status = .runnerFailure := by
  by_cases hloop : w.runner.pc = .loop ∧ w.runner.submission_finished = true
  · obtain ⟨now, -, -, -, hresult⟩ := h.settled hloop.1 hloop.2
    rw [hresult, status_settledAt]
  · rw [h.fresh hpc hloop]
    rfl

/-- The others leave the runner alone, and time passes. -/
theorem quiet (h : Findings q w) (hr : w'.runner = w.runner) (hc : w.clock ≤ w'.clock) :
    Findings q w' := by
  obtain ⟨hord, hdue, hlate, htold, hfresh, hsettled, hreturned⟩ := h
  rw [← hr] at hord hdue hlate htold hfresh hsettled hreturned
  refine ⟨hord, fun hpc => (hdue hpc).trans hc, fun hf => ?_, htold, hfresh, fun hpc hf => ?_,
    fun hpc hs => ?_⟩
  · obtain ⟨hpc, hd, hle⟩ := hlate hf
    exact ⟨hpc, hd, hle.trans hc⟩
  · obtain ⟨now, hstart, hnow, hrest⟩ := hsettled hpc hf
    exact ⟨now, hstart, hnow.trans hc, hrest⟩
  · obtain ⟨now, hf, hstart, hnow, hrest⟩ := hreturned hpc hs
    exact ⟨now, hf, hstart, hnow.trans hc, hrest⟩

/-- The flag is set in the deadline branch, and nowhere else. -/
theorem exceeded_of_move (hm : Runner.Move w x w') :
    w'.runner.result.wall_time_limit_exceeded = w.runner.result.wall_time_limit_exceeded ∨
      w.runner.pc = .sendTerminate ∧ w'.runner.result.wall_time_limit_exceeded = true := by
  cases hm.advance with
  | unchanged hr => exact .inl (by rw [hr])
  | deadline hpc _ hr => exact .inr ⟨hpc, by rw [hr]⟩
  | settled _ _ _ hr =>
    refine .inl ?_
    rw [hr, ExecutionResult.finalizeStatus]
    split
    · rfl
    · split <;> rfl
  | finished _ _ hr =>
    refine .inl ?_
    rw [hr, ExecutionResult.classify]
    split
    · rfl
    · split <;> rfl
  | failed _ _ _ _ _ hr => exact .inl (by rw [hr])

theorem late_of_move (h : Findings q w) (hd : Dated q w) (hm : Runner.Move w x w')
    (hf : w'.runner.result.wall_time_limit_exceeded = true) :
    (∀ n, w'.runner.pc ≠ .setup n) ∧
      w'.runner.deadline = deadlineOf w'.runner.start_time q.wall_limit ∧
      w'.runner.deadline ≤ w'.clock := by
  have hbefore : (∀ n, w.runner.pc ≠ .setup n) ∧
      w.runner.deadline = deadlineOf w.runner.start_time q.wall_limit ∧
      w.runner.deadline ≤ w.clock := by
    rcases exceeded_of_move hm with hsame | ⟨hpc, -⟩
    · exact h.late (hsame ▸ hf)
    · have hstarted := hd.deadline.resolve_left (by simp [hpc, RunnerPc.started])
      exact ⟨by simp [hpc], hstarted.1, h.due hpc⟩
  obtain ⟨hpc, hdeadline, hle⟩ := hbefore
  obtain ⟨hstart, hsame⟩ := hm.schedule_eq hpc
  rw [hstart, hsame, hm.clock]
  refine ⟨fun n hn => ?_, hdeadline, hle⟩
  obtain ⟨⟨m, hm'⟩, -⟩ := hm.setup ⟨n, hn⟩
  exact hpc m hm'

/-- The loop is over: all that is left is to classify the result. -/
theorem finish (h : Findings q w) (hm : Runner.Move w x w') (hpc : w.runner.pc = .loop)
    (hf : w.runner.submission_finished = true) (hr : w'.runner = w.runner.finish) :
    ∃ now, w'.runner.submission_finished = true ∧ w'.runner.start_time ≤ now ∧ now ≤ w'.clock ∧
      (w'.runner.result.wall_time_limit_exceeded = true → w'.runner.deadline ≤ now) ∧
      w'.runner.result = .report w'.runner.result.wall_time_limit_exceeded
        (now - w'.runner.start_time) w'.runner.status w'.runner.usage w'.runner.stdout_output
        w'.runner.stderr_output := by
  obtain ⟨now, hstart, hnow, hlate, hresult⟩ := h.settled hpc hf
  have hreport : w.runner.finish.result = .report w.runner.result.wall_time_limit_exceeded
      (now - w.runner.start_time) w.runner.status w.runner.usage w.runner.stdout_output
      w.runner.stderr_output := by
    have hclassified := congrArg (·.classify w.runner.status) hresult
    simp only [Runner.settledAt] at hclassified
    rw [← ExecutionResult.classify_settled, Runner.finish, Runner.give, hclassified]
  have hexceeded : w.runner.finish.result.wall_time_limit_exceeded =
      w.runner.result.wall_time_limit_exceeded := by
    rw [hreport]
    rfl
  refine ⟨now, ?_, ?_, ?_, ?_, ?_⟩
  · rw [hr]
    exact hf
  · rw [hr]
    exact hstart
  · rw [hm.clock]
    exact hnow
  · rw [hr, hexceeded]
    exact hlate
  · rw [hr, hexceeded]
    exact hreport

/-- At the end of the loop there is only one call to make. -/
theorem ending (h : Findings q w) (hm : Runner.Move w x w') (hpc : w.runner.pc = .loop)
    (hf : w.runner.submission_finished = true) : w' = w ∨ w'.runner = w.runner.finish := by
  have := h.ordered.finishing hf
  rcases hm.of_loop hpc with rfl | rfl
  · exact .inl rfl
  · refine .inr ?_
    grind -linarith

theorem fresh_of_move (h : Findings q w) (hm : Runner.Move w x w')
    (hpc : w'.runner.pc ≠ .returned)
    (hnot : ¬ (w'.runner.pc = .loop ∧ w'.runner.submission_finished = true)) :
    w'.runner.result = .unsettled w'.runner.result.wall_time_limit_exceeded := by
  by_cases hloop : w.runner.pc = .loop ∧ w.runner.submission_finished = true
  · rcases h.ending hm hloop.1 hloop.2 with rfl | hr
    · exact absurd hloop hnot
    · rw [hr] at hpc
      exact absurd rfl hpc
  · cases hm.advance with
    | unchanged hr hreturned =>
      rw [hr]
      exact h.fresh (fun hw => hpc (hreturned.2 hw)) hloop
    | deadline hw _ hr =>
      rw [hr, h.fresh (by simp [hw]) hloop]
      rfl
    | settled hw hpc' _ _ hs =>
      exact absurd ⟨hpc', hs.2.trans (h.ordered.settling hw)⟩ hnot
    | finished _ hpc' | failed _ hpc' => exact absurd hpc' hpc

theorem settled_of_move (h : Findings q w) (hd : Dated q w) (hm : Runner.Move w x w')
    (hpc : w'.runner.pc = .loop) (hf : w'.runner.submission_finished = true) : ∃ now,
    w'.runner.start_time ≤ now ∧ now ≤ w'.clock ∧
      (w'.runner.result.wall_time_limit_exceeded = true → w'.runner.deadline ≤ now) ∧
      w'.runner.result = w'.runner.settledAt now := by
  by_cases hloop : w.runner.pc = .loop ∧ w.runner.submission_finished = true
  · rcases h.ending hm hloop.1 hloop.2 with rfl | hr
    · exact h.settled hpc hf
    · rw [hr] at hpc
      cases hpc
  · cases hm.advance with
    | unchanged _ hreturned hback =>
      obtain ⟨hbefore, hne⟩ := hback hpc hf
      rcases h.ordered.finishing hbefore with hw | hw | hw
      · exact absurd hw hne
      · simp [hreturned.2 hw] at hpc
      · exact absurd ⟨hw.1, hbefore⟩ hloop
    | deadline _ hpc' => simp [hpc'] at hpc
    | settled hw _ _ _ hs =>
      have hstarted := hd.deadline.resolve_left (by simp [hw, RunnerPc.started])
      obtain ⟨hstart, hdeadline⟩ := hm.schedule_eq (by simp [hw])
      have hfresh := h.fresh (by simp [hw]) (by simp [hw])
      have hresult : w'.runner.result = w.runner.settledAt w.clock := by
        rw [hm.settles hw hpc, Runner.settledAt, ← hfresh]
      have hexceeded : w'.runner.result.wall_time_limit_exceeded =
          w.runner.result.wall_time_limit_exceeded := by
        rw [hresult, exceeded_settledAt]
      rcases hm.told h.ordered with ⟨-, hstatus, husage, -⟩ | ⟨hread, -⟩
      · refine ⟨w.clock, ?_, ?_, ?_, ?_⟩
        · rw [hstart]
          exact hstarted.2
        · exact hm.clock.ge
        · rw [hexceeded, hdeadline]
          exact fun hx => (h.late hx).2.2
        · rw [hresult, Runner.settledAt, Runner.settledAt, hexceeded, hstart, hstatus, husage]
      · simp [hw] at hread
    | finished _ hpc' | failed _ hpc' => simp [hpc'] at hpc

theorem returned_of_move (h : Findings q w) (hm : Runner.Move w x w')
    (hrunning : w.runner.pc ≠ .returned) (hpc : w'.runner.pc = .returned)
    (hs : w'.runner.result.status.infrastructure = false) : ∃ now,
    w'.runner.submission_finished = true ∧ w'.runner.start_time ≤ now ∧ now ≤ w'.clock ∧
      (w'.runner.result.wall_time_limit_exceeded = true → w'.runner.deadline ≤ now) ∧
      w'.runner.result = .report w'.runner.result.wall_time_limit_exceeded
        (now - w'.runner.start_time) w'.runner.status w'.runner.usage w'.runner.stdout_output
        w'.runner.stderr_output := by
  by_cases hloop : w.runner.pc = .loop ∧ w.runner.submission_finished = true
  · rcases h.ending hm hloop.1 hloop.2 with rfl | hr
    · exact absurd hpc hrunning
    · exact h.finish hm hloop.1 hloop.2 hr
  · cases hm.advance with
    | unchanged _ hreturned => exact absurd (hreturned.1 hpc) hrunning
    | deadline _ hpc' | settled _ hpc' => simp [hpc'] at hpc
    | finished hw =>
      rcases hw with hw | hw
      · exact absurd hw h.ordered.reaping
      · exact absurd ⟨hw.1, hw.2.1⟩ hloop
    | failed _ _ state status hstatus hr =>
      rw [hr] at hs
      rcases hstatus with rfl | rfl | rfl
      · cases hs
      · cases hs
      · rw [h.running hrunning] at hs
        cases hs

theorem runner (h : Findings q w) (hd : Dated q w) (hm : Runner.Move w x w') :
    Findings q w' := by
  by_cases hreturned : w.runner.pc = .returned
  · rw [hm.of_returned hreturned]
    exact h
  refine ⟨h.ordered.move hm, fun hpc => ?_, h.late_of_move hd hm, fun hf => ?_, ?_, ?_, ?_⟩
  · rcases hm.to_sendTerminate hpc with rfl | ⟨hloop, hle⟩
    · exact h.due hpc
    · rw [(hm.schedule_eq (by simp [hloop])).2, hm.clock]
      exact hle
  · rcases hm.told h.ordered with
      ⟨hf', hstatus, husage, hdecoded⟩ | ⟨-, payload, hdecoded, hstatus, husage⟩
    · rw [hf'] at hf
      rw [hstatus, husage, hdecoded hf]
      exact h.told hf
    · exact ⟨_, payload, hdecoded, hstatus, husage⟩
  · intro hpc hnot
    exact h.fresh_of_move hm hpc hnot
  · intro hpc hf
    exact h.settled_of_move hd hm hpc hf
  · intro hpc hs
    exact h.returned_of_move hm hreturned hpc hs

theorem keep (h : Findings q w) (hd : Dated q w) (ht : step w a = some w') : Findings q w' := by
  rcases (moves_step ht).runner_cases with ⟨x, -, hm⟩ | hr
  · exact h.runner hd hm
  · exact h.quiet hr (clock_step ht)

theorem init (q : Request) : Findings q (.init q) :=
  ⟨⟨nofun, nofun, nofun, nofun, nofun, nofun⟩, nofun, nofun, nofun, fun _ _ => rfl, nofun, nofun⟩

theorem reach (h : Runs q acts w) : Findings q w := by
  have hboth : Dated q w ∧ Findings q w :=
    Machine.run_keeps (I := fun s => Dated q s ∧ Findings q s)
      (fun _ _ _ hs ht => ⟨hs.1.step ht, hs.2.keep hs.1 ht⟩) ⟨⟨rfl, .inl rfl⟩, init q⟩ h
  exact hboth.2

end Findings

theorem ExecutionResult.exceeded_of_timedOut {exceeded : Bool} {elapsed : Int} {status : Word32}
    {usage : Rusage} {out err : List Byte}
    (h : (ExecutionResult.report exceeded elapsed status usage out err).status = .timedOut) :
    exceeded = true := by
  cases exceeded
  · simp only [report, Bool.false_eq_true, if_false] at h
    split at h <;> cases h
  · rfl

/-- Whatever goes wrong, no run is said to have timed out before its wall limit. -/
theorem timed_out_not_early (h : Runs q acts w) (hpc : w.runner.pc = .returned)
    (hstatus : w.runner.result.status = .timedOut)
    (hexact : DeadlineExact w.runner.start_time q.wall_limit) :
    q.wall_limit ≤ w.runner.result.wall_time := by
  have hfindings := Findings.reach h
  obtain ⟨now, -, hstart, -, hlate, hresult⟩ :=
    hfindings.returned hpc (by rw [hstatus]; rfl)
  have hexceeded : w.runner.result.wall_time_limit_exceeded = true := by
    rw [hresult] at hstatus
    exact ExecutionResult.exceeded_of_timedOut hstatus
  have hle : w.runner.start_time + q.wall_limit * 1000000 ≤ now := by
    rw [← hexact.2, ← (hfindings.late hexceeded).2.1]
    exact hlate hexceeded
  have helapsed : w.runner.result.wall_time = (now - w.runner.start_time).tdiv 1000000 := by
    rw [hresult]
    rfl
  rw [helapsed, Int.tdiv_eq_ediv_of_nonneg (by omega)]
  omega

theorem timed_out_not_early_killed :
    ∃ w, Runs ⟨[], 1000, 0⟩ (timesOut 9) w ∧ w.runner.result.status = .timedOut ∧
      1000 ≤ w.runner.result.wall_time := by
  obtain ⟨w, hw, hpc, hstatus, hstart⟩ : ∃ w, Runs ⟨[], 1000, 0⟩ (timesOut 9) w ∧
      w.runner.pc = .returned ∧ w.runner.result.status = .timedOut ∧ w.runner.start_time = 0 :=
    exists_run (by decide +kernel)
  refine ⟨w, hw, hstatus, timed_out_not_early hw hpc hstatus ?_⟩
  rw [hstart]
  exact ⟨by decide, by decide⟩

end OnlineJudge
