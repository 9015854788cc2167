import OnlineJudge.Verdicts
import OnlineJudge.Scheduler

/-!
# Submissions

`Compiler::compile` and `SubmissionService::evaluate`. The compiler too is run by
`ProcessRunner::run`, and nobody between it and the user looks at a status.
-/

namespace OnlineJudge

/-- `ProcessRunner::run` with executable, arguments, input and configuration, as
an object with state `σ`. -/
abbrev ProcessRun (σ : Type) :=
  String → List String → List Byte → ExecutionConfig → σ → ExecutionResult × σ

/-! ## Paths -/

/-- `parent_path` of `std::filesystem`. -/
def parentPath (path : List Char) : List Char :=
  if path.all (fun c => c = '/') then path
  else
    let directory := path.reverse.dropWhile (fun c => c ≠ '/')
    -- separators at the end go too, but for the root directory
    let stripped := directory.dropWhile (fun c => c = '/')
    if stripped = [] && directory ≠ [] then ['/'] else stripped.reverse

/-- `operator/` with a relative path on the right. -/
def joinPath (path name : List Char) : List Char :=
  if path = [] || path.getLast? = some '/' then path ++ name else path ++ '/' :: name

/-- `source_path.parent_path() / "solution_exec"`. -/
def outputFile (solution_path : String) : String :=
  String.ofList (joinPath (parentPath solution_path.toList) "solution_exec".toList)

example : outputFile "/judge//main.cpp" = "/judge/solution_exec" := by decide

/-! ## Compilation -/

structure CompileResult where
  exit_code : Nat
  stderr_output : List Byte
  executable_path : String := ""
  deriving DecidableEq, Repr

def compileLimits : ExecutionLimits := ⟨30, 60000, 1024 * 1024 * 1024⟩

/-- `Compiler::compile`. -/
def compile {σ : Type} (run : ProcessRun σ) (source_file output_file : String) (s : σ) :
    CompileResult × σ :=
  let (execute, s) := run "g++" [source_file, "-o", output_file] [] { limit := compileLimits } s
  ({ exit_code := execute.exit_code
     stderr_output := execute.stderr_output
     executable_path := if execute.exit_code = 0 then output_file else "" }, s)

/-! ## Evaluation -/

structure SubmissionResult where
  compile_result : CompileResult
  verdict : Verdict
  test_runner_result : TestRunnerResult := {}
  deriving DecidableEq, Repr

section
variable {σ : Type} (run : ProcessRun σ) (storage : σ → Verdict) (solution_path : String)
  (testsuite : List TestCase) (config : ExecutionConfig) (s : σ)

/-- `SubmissionService::evaluate`. -/
def SubmissionService.evaluate : SubmissionResult × σ :=
  let output_file := outputFile solution_path
  let (compile_result, s) := compile run solution_path output_file s
  if compile_result.exit_code = 0 then
    let (runner_result, s) := TestRunner.run (fun input s => run output_file [] input config s)
      (judgeOn storage) testsuite s
    -- a failed test index comes with a judge result
    match runner_result.failed_test_index, runner_result.failed_judge_result with
    | some _, some judge_result =>
      (⟨compile_result, judge_result.verdict, runner_result⟩, s)
    | _, _ => (⟨compile_result, .accepted, runner_result⟩, s)
  else (⟨compile_result, .compilationError, {}⟩, s)

/-- The executions of the tests, when the submission compiles. -/
def SubmissionService.calls : List (TestRunner.Call σ) :=
  let output_file := outputFile solution_path
  let (compile_result, s) := compile run solution_path output_file s
  if compile_result.exit_code = 0 then
    TestRunner.calls (fun input s => run output_file [] input config s) (judgeOn storage)
      testsuite s
  else []

/-- The execution of the compiler. -/
def SubmissionService.compilation : ExecutionResult :=
  (run "g++" [solution_path, "-o", outputFile solution_path] [] { limit := compileLimits } s).1

end

/-- The system failed, not the program it ran. -/
def ExecutionStatus.infrastructure : ExecutionStatus → Bool
  | sandboxFailure | runnerFailure => true
  | completed | timedOut | signaled => false

theorem CanReturn.infrastructure {execution : ExecutionResult} (h : CanReturn execution)
    (hf : execution.status.infrastructure = true) :
    execution.exit_code = 1 ∧ execution.terminated_by_signal = false := by
  refine h.shape.failed ?_
  cases hs : execution.status <;> simp_all [ExecutionStatus.infrastructure]

/-- A failure of the system has exit code 1, so the judge takes it for a runtime
error. -/
theorem evaluate_of_infrastructure {execution : ExecutionResult} (u : Verdict)
    (expected : List Byte) (h : CanReturn execution)
    (hf : execution.status.infrastructure = true) :
    (evaluate u execution expected).verdict = .runtimeError := by
  obtain ⟨hexit, hsignal⟩ := h.infrastructure hf
  simp [evaluate, hexit, hsignal]

section
variable {σ : Type} (run : ProcessRun σ) (storage : σ → Verdict) (solution_path : String)
  (testsuite : List TestCase) (config : ExecutionConfig) (s : σ)

theorem submission_of_compilation_failed
    (hf : (SubmissionService.compilation run solution_path s).exit_code ≠ 0) :
    (SubmissionService.evaluate run storage solution_path testsuite config s).1.verdict =
      .compilationError := by
  simp only [SubmissionService.compilation] at hf
  simp [SubmissionService.evaluate, compile, hf]

/-- A test that the judge rejects decides the submission. -/
theorem submission_of_rejected {i : Nat} {call : TestRunner.Call σ}
    (hc : (SubmissionService.calls run storage solution_path testsuite config s)[i]? = some call)
    (hv : verdictOf storage call ≠ .accepted) :
    let submission := (SubmissionService.evaluate run storage solution_path testsuite config s).1
    submission.verdict = verdictOf storage call ∧
      submission.test_runner_result =
        ⟨some i, some call.execution,
          some (evaluate (storage call.state) call.execution call.test_case.expected_output)⟩ := by
  simp only [SubmissionService.calls] at hc
  split at hc
  · rename_i hexit
    have hrun := TestRunner.run_of_rejected hc hv
    simp only [SubmissionService.evaluate, if_pos hexit, hrun]
    exact ⟨rfl, rfl⟩
  · simp at hc

theorem mem_calls_submission {call : TestRunner.Call σ}
    (hc : call ∈ SubmissionService.calls run storage solution_path testsuite config s) :
    ∃ path args input config s', call.execution = (run path args input config s').1 := by
  simp only [SubmissionService.calls] at hc
  split at hc
  · obtain ⟨input, s', hr⟩ := TestRunner.mem_calls_run hc
    exact ⟨_, _, input, _, s', hr⟩
  · simp at hc

/-- Whatever the expected output, a failure of the system is judged, recorded and
returned as a runtime error, and as a compilation error when the compiler was to
run. -/
theorem infrastructure_failure_blamed
    (hrun : ∀ path args input config s, CanReturn (run path args input config s).1) :
    ((SubmissionService.compilation run solution_path s).status.infrastructure = true →
      (SubmissionService.evaluate run storage solution_path testsuite config s).1.verdict =
        .compilationError) ∧
    ∀ (i : Nat) (call : TestRunner.Call σ),
      (SubmissionService.calls run storage solution_path testsuite config s)[i]? = some call →
      call.execution.status.infrastructure = true →
      let submission := (SubmissionService.evaluate run storage solution_path testsuite config s).1
      verdictOf storage call = .runtimeError ∧
        submission.test_runner_result =
          ⟨some i, some call.execution,
            some (evaluate (storage call.state) call.execution call.test_case.expected_output)⟩ ∧
        submission.verdict = .runtimeError := by
  refine ⟨fun hf => ?_, fun i call hc hf => ?_⟩
  · apply submission_of_compilation_failed
    have hcan : CanReturn (SubmissionService.compilation run solution_path s) := hrun _ _ _ _ _
    rw [(hcan.infrastructure hf).1]
    decide
  · obtain ⟨path, args, input, config', s', hr⟩ :=
      mem_calls_submission run storage solution_path testsuite config s (List.mem_of_getElem? hc)
    have hcan : CanReturn call.execution := hr ▸ hrun path args input config' s'
    have hverdict : verdictOf storage call = .runtimeError :=
      evaluate_of_infrastructure _ _ hcan hf
    obtain ⟨hreturned, hrecorded⟩ := submission_of_rejected run storage solution_path testsuite
      config s hc (by rw [hverdict]; decide)
    exact ⟨hverdict, hrecorded, hreturned.trans hverdict⟩

end

/-- The compiler runs, and then every call fails. -/
def failsAfterCompiling (compiled failed : ExecutionResult) : ProcessRun Nat :=
  fun _ _ _ _ n => (if n = 0 then compiled else failed, n + 1)

/-- `socketpair` answers `EMFILE`. -/
def noSocket : List Act := [.runner .ok, .runner (.fail 24)]

theorem exists_failsAfterCompiling :
    ∃ compiled failed : ExecutionResult,
      (∀ path args input config n,
        CanReturn (failsAfterCompiling compiled failed path args input config n).1) ∧
      failed.status.infrastructure = true ∧
      SubmissionService.calls (failsAfterCompiling compiled failed) (fun _ => .accepted)
        "main.cpp" [⟨[], []⟩] { limit := ⟨1, 1000, 0⟩ } 0 = [⟨⟨[], []⟩, failed, 2⟩] := by
  obtain ⟨w₁, hw₁, hpc₁, hexit⟩ : ∃ w, Runs ⟨[], 1000, 0⟩ (completes 0) w ∧
      w.runner.pc = .returned ∧ w.runner.result.exit_code = 0 := exists_run (by decide +kernel)
  obtain ⟨w₂, hw₂, hpc₂, hst⟩ : ∃ w, Runs ⟨[], 1000, 0⟩ noSocket w ∧
      w.runner.pc = .returned ∧ w.runner.result.status = .runnerFailure :=
    exists_run (by decide +kernel)
  refine ⟨w₁.runner.result, w₂.runner.result, fun _ _ _ _ n => ?_, by rw [hst]; rfl, ?_⟩
  · by_cases hn : n = 0
    · exact ⟨_, _, w₁, hw₁, hpc₁, by simp [failsAfterCompiling, hn]⟩
    · exact ⟨_, _, w₂, hw₂, hpc₂, by simp [failsAfterCompiling, hn]⟩
  · simp [SubmissionService.calls, compile, failsAfterCompiling, hexit, TestRunner.calls]

theorem infrastructure_failure_blamed_socket :
    ∃ failed : ExecutionResult, failed.status.infrastructure = true ∧
      verdictOf (fun _ => .accepted) ⟨⟨[], []⟩, failed, 2⟩ = .runtimeError := by
  obtain ⟨compiled, failed, hrun, hf, hcalls⟩ := exists_failsAfterCompiling
  refine ⟨failed, hf, ?_⟩
  exact ((infrastructure_failure_blamed (failsAfterCompiling compiled failed) (fun _ => .accepted)
    "main.cpp" [⟨[], []⟩] { limit := ⟨1, 1000, 0⟩ } 0 hrun).2 0 _ (by rw [hcalls]; rfl) hf).1

/-- The submission of such an execution is not judged as an internal error. -/
theorem infrastructure_failure_not_internal :
    ¬ ∀ (σ : Type) (run : ProcessRun σ) (storage : σ → Verdict) (solution_path : String)
        (testsuite : List TestCase) (config : ExecutionConfig) (s : σ),
      (∀ path args input config s, CanReturn (run path args input config s).1) →
      ∀ (i : Nat) (call : TestRunner.Call σ),
        (SubmissionService.calls run storage solution_path testsuite config s)[i]? = some call →
        call.execution.status.infrastructure = true →
        let submission :=
          (SubmissionService.evaluate run storage solution_path testsuite config s).1
        verdictOf storage call = .internalError ∧
          (∃ judge_result,
            submission.test_runner_result.failed_judge_result = some judge_result ∧
            judge_result.verdict = .internalError) ∧
          submission.verdict = .internalError := by
  intro h
  obtain ⟨compiled, failed, hrun, hf, hcalls⟩ := exists_failsAfterCompiling
  have hinternal := (h Nat _ (fun _ => .accepted) "main.cpp" [⟨[], []⟩] { limit := ⟨1, 1000, 0⟩ } 0
    hrun 0 _ (by rw [hcalls]; rfl) hf).1
  have hcan : CanReturn failed := hrun "" [] [] { limit := ⟨1, 1000, 0⟩ } 1
  rw [verdictOf, evaluate_of_infrastructure _ _ hcan hf] at hinternal
  cases hinternal

end OnlineJudge
