import OnlineJudge.FailFast

/-!
# Compilation errors

`Compiler::compile` keeps the exit code of the compiler's execution and drops its
status, so the service cannot tell a compiler that rejected the source from one
that never ran.
-/

namespace OnlineJudge

/-! ## The exit code of a signaled process -/

/-- Only `finalize_status` changes the exit code, and not for a signal. -/
def SignalKeepsCode (r : Runner) : Prop :=
  r.result.terminated_by_signal = true → r.result.exit_code = 1

theorem signalKeepsCode_settled {result : ExecutionResult} {status : Word32} {start now : Int}
    {usage : Rusage} (hcode : result.exit_code = 1) (hsignal : result.terminated_by_signal = false)
    (h : ((result.finalizeResourceUsage start now usage).finalizeStatus
      status).terminated_by_signal = true) :
    ((result.finalizeResourceUsage start now usage).finalizeStatus status).exit_code = 1 := by
  unfold ExecutionResult.finalizeStatus at h ⊢
  split
  · rename_i he
    rw [if_pos he] at h
    exact absurd (hsignal.symm.trans h) (by decide)
  · split <;> exact hcode

theorem SignalKeepsCode.move {w w' : World} {x : Answer} (h : SignalKeepsCode w.runner)
    (hshape : Shaped w.runner) (hm : Runner.Move w x w') : SignalKeepsCode w'.runner := by
  cases hm.advance with
  | unchanged hres => rwa [SignalKeepsCode, hres]
  | deadline _ _ hres | failed _ _ _ _ _ hres => rw [SignalKeepsCode, hres]; exact h
  | settled hpc _ now hres =>
    obtain ⟨hcode, hsignal⟩ := hshape.unsettled (by simp [hpc]) (by simp [hpc])
    rw [SignalKeepsCode, hres]
    exact signalKeepsCode_settled hcode hsignal
  | finished _ _ hres =>
    rw [SignalKeepsCode, hres]
    unfold ExecutionResult.classify
    split
    · exact h
    · split <;> exact h

theorem SignalKeepsCode.reach {q : Request} {acts : List Act} {w : World} (h : Runs q acts w) :
    SignalKeepsCode w.runner := by
  have hboth : Shaped w.runner ∧ SignalKeepsCode w.runner :=
    Machine.run_keeps (I := fun w => Shaped w.runner ∧ SignalKeepsCode w.runner)
      (fun s a t hs ht => ⟨hs.1.keep (moves_step ht), by
        rcases (moves_step ht).runner_cases with ⟨x, -, hm⟩ | heq
        · exact hs.2.move hs.1 hm
        · rw [heq]; exact hs.2⟩)
      ⟨.init q, nofun⟩ h
  exact hboth.2

/-- Nothing but a deadline goes with exit code 0 when the execution did not
complete. -/
theorem CanReturn.timedOut_of_code {execution : ExecutionResult} (h : CanReturn execution)
    (hcode : execution.exit_code = 0) (hst : execution.status ≠ .completed) :
    execution.status = .timedOut := by
  have hshape := h.shape
  obtain ⟨q, acts, w, hw, -, rfl⟩ := h
  cases hs : w.runner.result.status with
  | completed => exact absurd hs hst
  | timedOut => rfl
  | signaled =>
    have := SignalKeepsCode.reach hw (hshape.signaled hs)
    omega
  | sandboxFailure =>
    have := (hshape.failed (.inr hs)).1
    omega
  | runnerFailure =>
    have := (hshape.failed (.inl hs)).1
    omega

/-! ## The verdict of a submission -/

section
variable {σ : Type} (run : ProcessRun σ) (storage : σ → Verdict) (solution_path : String)
  (testsuite : List TestCase) (config : ExecutionConfig) (s : σ)

/-- The branch of `SubmissionService::evaluate` that calls `TestRunner::run`. -/
def SubmissionService.goesOnToTests : Bool :=
  (compile run solution_path (outputFile solution_path) s).1.exit_code = 0

theorem goesOnToTests_iff :
    SubmissionService.goesOnToTests run solution_path s = true ↔
      (SubmissionService.compilation run solution_path s).exit_code = 0 := by
  rw [SubmissionService.goesOnToTests, decide_eq_true_eq]
  rfl

/-- A test whose verdict nobody assigned is reported with what the storage held. -/
def SubmissionService.ReadsCompilationError : Prop :=
  ∃ call ∈ SubmissionService.calls run storage solution_path testsuite config s,
    Unassigned call.execution = true ∧ storage call.state = .compilationError

theorem verdictOf_eq_compilationError_iff {call : TestRunner.Call σ} :
    verdictOf storage call = .compilationError ↔
      Unassigned call.execution = true ∧ storage call.state = .compilationError := by
  cases hu : Unassigned call.execution with
  | true => simp [verdictOf, evaluate_of_unassigned hu]
  | false =>
    rw [verdictOf, evaluate_of_assigned (v := .accepted) hu]
    unfold evaluate
    grind -linarith

/-- A submission whose tests are run takes its verdict from them. -/
theorem compilationError_of_tests
    (hgo : SubmissionService.goesOnToTests run solution_path s = true) :
    (SubmissionService.evaluate run storage solution_path testsuite config s).1.verdict =
        .compilationError ↔
      SubmissionService.ReadsCompilationError run storage solution_path testsuite config s := by
  have hcompiled : (compile run solution_path (outputFile solution_path) s).1.exit_code = 0 := by
    rwa [SubmissionService.goesOnToTests, decide_eq_true_eq] at hgo
  constructor
  · intro hv
    rcases (submission_of_compiled run storage solution_path testsuite config s hcompiled).2 with
      ⟨-, -, hacc⟩ | ⟨passed, execution, judgement, hans, -, -, hlast⟩
    · exact absurd (hacc.symm.trans hv) (by decide)
    · have hmem : (execution, judgement) ∈
          SubmissionService.answers run storage solution_path testsuite config s := by
        rw [hans]
        simp
      obtain ⟨call, hcall, heq⟩ := List.mem_map.1 hmem
      refine ⟨call, by simpa only [SubmissionService.calls, if_pos hcompiled] using hcall, ?_⟩
      rw [← verdictOf_eq_compilationError_iff, ← hv, hlast]
      exact congrArg (fun answer => answer.2.verdict) heq
  · rintro ⟨call, hmem, hread⟩
    obtain ⟨i, hi⟩ := List.mem_iff_getElem?.1 hmem
    have hverdict := (verdictOf_eq_compilationError_iff storage).2 hread
    have hrejected : verdictOf storage call ≠ .accepted := by rw [hverdict]; decide
    rw [(submission_of_rejected run storage solution_path testsuite config s hi hrejected).1,
      hverdict]

/-- `CompilationError` is returned only when the compiler ran to its end and
rejected the source, and the tests are run only when it ran to its end and
accepted it, iff its execution completed and no test reads that verdict from
storage. Any other execution of the compiler is reported as a compilation error,
but for one that exits with code 0 after its deadline. -/
theorem compilation_error_iff
    (hrun : CanReturn (SubmissionService.compilation run solution_path s)) :
    let execution := SubmissionService.compilation run solution_path s
    let submission := (SubmissionService.evaluate run storage solution_path testsuite config s).1
    let goes_on := SubmissionService.goesOnToTests run solution_path s
    (((submission.verdict = .compilationError →
          execution.status = .completed ∧ execution.exit_code ≠ 0) ∧
        (goes_on = true → execution.status = .completed ∧ execution.exit_code = 0)) ↔
      execution.status = .completed ∧
        ¬ SubmissionService.ReadsCompilationError run storage solution_path testsuite config s) ∧
    (execution.status ≠ .completed → submission.verdict = .compilationError ∨
      execution.status = .timedOut ∧ execution.exit_code = 0 ∧ goes_on = true) := by
  have hgo := goesOnToTests_iff run solution_path s
  by_cases hcode : (SubmissionService.compilation run solution_path s).exit_code = 0
  · have htests := compilationError_of_tests run storage solution_path testsuite config s
      (hgo.2 hcode)
    refine ⟨⟨fun ⟨herror, hok⟩ => ?_, fun ⟨hdone, hread⟩ => ?_⟩, fun hst => ?_⟩
    · obtain ⟨hdone, -⟩ := hok (hgo.2 hcode)
      exact ⟨hdone, fun hread => (herror (htests.2 hread)).2 hcode⟩
    · exact ⟨fun hv => absurd (htests.1 hv) hread, fun _ => ⟨hdone, hcode⟩⟩
    · exact .inr ⟨hrun.timedOut_of_code hcode hst, hcode, hgo.2 hcode⟩
  · have hv := submission_of_compilation_failed run storage solution_path testsuite config s hcode
    have hno : ¬ SubmissionService.ReadsCompilationError run storage solution_path testsuite
        config s := by
      have hfailed : ¬ (compile run solution_path (outputFile solution_path) s).1.exit_code = 0 :=
        hcode
      rintro ⟨call, hmem, -⟩
      simp only [SubmissionService.calls, if_neg hfailed] at hmem
      cases hmem
    refine ⟨⟨fun ⟨herror, _⟩ => ⟨(herror hv).1, hno⟩, fun ⟨hdone, _⟩ => ?_⟩, fun _ => .inl hv⟩
    exact ⟨fun _ => ⟨hdone, hcode⟩, fun hg => absurd (hgo.1 hg) hcode⟩

end

theorem compilation_error_iff_compiled :
    ∃ compiled : ExecutionResult, CanReturn compiled ∧
      (let submission := (SubmissionService.evaluate (fun _ _ _ _ s => (compiled, s))
          (fun _ => .accepted) "main.cpp" [] { limit := ⟨1, 1000, 0⟩ } ()).1
      submission.verdict = .compilationError →
        compiled.status = .completed ∧ compiled.exit_code ≠ 0) := by
  obtain ⟨w, hw, hpc, hst⟩ : ∃ w, Runs ⟨[], 1000, 0⟩ (completes 256) w ∧
      w.runner.pc = .returned ∧ w.runner.result.status = .completed :=
    exists_run (by decide +kernel)
  have hcan : CanReturn w.runner.result := ⟨_, _, w, hw, hpc, rfl⟩
  refine ⟨_, hcan, ((compilation_error_iff (fun _ _ _ _ s => (w.runner.result, s))
    (fun _ => .accepted) "main.cpp" [] { limit := ⟨1, 1000, 0⟩ } () hcan).1.2 ⟨hst, ?_⟩).1⟩
  rintro ⟨call, hmem, -⟩
  simp only [SubmissionService.calls, TestRunner.calls, ite_self] at hmem
  cases hmem

/-- Child B cannot mount the executable: `g++` is no path of a file. -/
def compilerMissing : List Act :=
  bootSupervisor ++ List.replicate 13 (Act.childA .ok) ++
    [Act.childB .ok, .childB (.fail ENOENT)] ++
    List.replicate 2 (Act.childB .ok) ++ [Act.supervisor (.ready false true), .supervisor .ok] ++
    List.replicate 4 (Act.childA .ok) ++ [Act.supervisor (.reap .zero)] ++
    List.replicate 3 (Act.supervisor .ok) ++
    [Act.runner .ok, .runner (.events { control := true })] ++ List.replicate 3 (Act.runner .ok)

/-- A sandbox that could not be set up for the compiler is reported as a
compilation error. -/
theorem sandbox_failure_blames_source :
    ¬ ∀ (σ : Type) (run : ProcessRun σ) (storage : σ → Verdict) (solution_path : String)
        (testsuite : List TestCase) (config : ExecutionConfig) (s : σ),
      CanReturn (SubmissionService.compilation run solution_path s) →
      let execution := SubmissionService.compilation run solution_path s
      let submission :=
        (SubmissionService.evaluate run storage solution_path testsuite config s).1
      (submission.verdict = .compilationError →
        execution.status = .completed ∧ execution.exit_code ≠ 0) ∧
      (SubmissionService.goesOnToTests run solution_path s = true →
        execution.status = .completed ∧ execution.exit_code = 0) := by
  intro h
  obtain ⟨w, hw, hpc, hst, hcode⟩ : ∃ w, Runs ⟨[], 1000, 0⟩ compilerMissing w ∧
      w.runner.pc = .returned ∧ w.runner.result.status = .sandboxFailure ∧
      w.runner.result.exit_code = 1 := exists_run (by decide +kernel)
  have hcan : CanReturn w.runner.result := ⟨_, _, w, hw, hpc, rfl⟩
  have hblamed := h Unit (fun _ _ _ _ s => (w.runner.result, s)) (fun _ => .accepted) "main.cpp" []
    { limit := ⟨1, 1000, 0⟩ } () hcan
  have hdone := (hblamed.1 (submission_of_compilation_failed _ _ _ _ _ _ (by
    show w.runner.result.exit_code ≠ 0
    rw [hcode]
    decide))).1
  exact absurd (hst.symm.trans hdone) (by decide)

end OnlineJudge
