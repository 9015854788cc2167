import OnlineJudge.Submission

/-!
# Fail-fast evaluation

`TestRunner::run` over a runner and a judge that keep a record of their calls:
which calls it makes, where it stops, and what it returns. What the submission
service does with the three optionals follows.
-/

namespace OnlineJudge

/-- A call of the test runner on one of its two interfaces, with the answer. -/
inductive TestRunner.Event
  | run (executable_path : String) (args : List String) (input : List Byte)
    (config : ExecutionConfig) (answer : ExecutionResult)
  | evaluate (execution : ExecutionResult) (expected_output : List Byte) (answer : JudgeResult)

namespace TestRunner

section
variable {σ : Type}

/-- The same runner, with a record of its calls. -/
def recordRun (run : ProcessRun σ) : ProcessRun (σ × List Event) :=
  fun executable_path args input config s =>
    let (answer, t) := run executable_path args input config s.1
    (answer, t, s.2 ++ [.run executable_path args input config answer])

/-- The same judge, with a record of its calls. -/
def recordJudge (judge : ExecutionResult → List Byte → σ → JudgeResult × σ)
    (execution : ExecutionResult) (expected_output : List Byte) (s : σ × List Event) :
    JudgeResult × σ × List Event :=
  let (answer, t) := judge execution expected_output s.1
  (answer, t, s.2 ++ [.evaluate execution expected_output answer])

/-- What the two interfaces answered in each pass of the loop. -/
def answers (run : List Byte → σ → ExecutionResult × σ)
    (judge : ExecutionResult → List Byte → σ → JudgeResult × σ) (testsuite : List TestCase)
    (s : σ) : List (ExecutionResult × JudgeResult) :=
  (calls run judge testsuite s).map fun call =>
    (call.execution, (judge call.execution call.test_case.expected_output call.state).1)

end

/-- One run and one evaluation for each answered test case, in order. -/
def alternation (executable_path : String) (config : ExecutionConfig) (testsuite : List TestCase)
    (answers : List (ExecutionResult × JudgeResult)) : List Event :=
  (testsuite.zip answers).flatMap fun ⟨test_case, execution, judgement⟩ =>
    [.run executable_path [] test_case.input config execution,
      .evaluate execution test_case.expected_output judgement]

/-- All test cases from number `i` on were answered with `Accepted` and the
optionals are empty, or the last answer is the first that is not, and they hold
its number and the two results. -/
def FailFast (i : Nat) (testsuite : List TestCase) (answers : List (ExecutionResult × JudgeResult))
    (result : TestRunnerResult) : Prop :=
  (answers.length = testsuite.length ∧ (∀ answer ∈ answers, answer.2.verdict = .accepted) ∧
    result = {}) ∨
  ∃ passed execution judgement, answers = passed ++ [(execution, judgement)] ∧
    passed.length < testsuite.length ∧ (∀ answer ∈ passed, answer.2.verdict = .accepted) ∧
    judgement.verdict ≠ .accepted ∧
    result = ⟨some (i + passed.length), some execution, some judgement⟩

section
variable {σ : Type} {run : List Byte → σ → ExecutionResult × σ}
  {judge : ExecutionResult → List Byte → σ → JudgeResult × σ} {testsuite : List TestCase} {s : σ}

theorem FailFast.cons {i : Nat} {test_case : TestCase} {answer : ExecutionResult × JudgeResult}
    {answers : List (ExecutionResult × JudgeResult)} {result : TestRunnerResult}
    (ha : answer.2.verdict = .accepted) (h : FailFast (i + 1) testsuite answers result) :
    FailFast i (test_case :: testsuite) (answer :: answers) result := by
  rcases h with ⟨hlen, hall, hres⟩ | ⟨passed, execution, judgement, hans, hlen, hall, hv, hres⟩
  · refine .inl ⟨by simp [hlen], ?_, hres⟩
    intro a hmem
    rcases List.mem_cons.1 hmem with rfl | hmem
    · exact ha
    · exact hall a hmem
  · refine .inr ⟨answer :: passed, execution, judgement, by rw [hans]; rfl, by simpa using hlen,
      ?_, hv, ?_⟩
    · intro a hmem
      rcases List.mem_cons.1 hmem with rfl | hmem
      · exact ha
      · exact hall a hmem
    · rw [hres, List.length_cons, Nat.add_right_comm, Nat.add_assoc]

theorem failFast_runFrom (i : Nat) :
    FailFast i testsuite (answers run judge testsuite s) (runFrom run judge i testsuite s).1 := by
  induction testsuite generalizing i s with
  | nil => simp [FailFast, answers, calls, runFrom]
  | cons test_case rest ih =>
    rcases hr : run test_case.input s with ⟨execution, s₁⟩
    rcases hj : judge execution test_case.expected_output s₁ with ⟨judgement, s₂⟩
    simp only [answers, calls, runFrom, List.map_cons, hr, hj]
    by_cases hv : judgement.verdict = .accepted
    · simp only [hv, ne_eq, not_true_eq_false, if_false]
      exact .cons hv (ih (i + 1))
    · simp only [hv, ne_eq, not_false_eq_true, if_true]
      exact .inr ⟨[], execution, judgement, rfl, by simp, by simp, hv, by simp⟩

end

section
variable {σ : Type} (run : ProcessRun σ) (judge : ExecutionResult → List Byte → σ → JudgeResult × σ)
  (executable_path : String) (config : ExecutionConfig)

/-- The record changes no answer, and holds just the calls of the loop. -/
theorem runFrom_recorded (i : Nat) (testsuite : List TestCase) (s : σ) (log : List Event) :
    ∃ t, runFrom (fun input s => recordRun run executable_path [] input config s)
        (recordJudge judge) i testsuite (s, log) =
      ((runFrom (fun input s => run executable_path [] input config s) judge i testsuite s).1, t,
        log ++ alternation executable_path config testsuite
          (answers (fun input s => run executable_path [] input config s) judge testsuite s)) := by
  induction testsuite generalizing i s log with
  | nil => exact ⟨s, by simp [runFrom, alternation]⟩
  | cons test_case rest ih =>
    rcases hr : run executable_path [] test_case.input config s with ⟨execution, s₁⟩
    rcases hj : judge execution test_case.expected_output s₁ with ⟨judgement, s₂⟩
    simp only [answers, calls, runFrom, recordRun, recordJudge, List.map_cons, alternation,
      List.zip_cons_cons, List.flatMap_cons, hr, hj]
    by_cases hv : judgement.verdict = .accepted
    · obtain ⟨t, ht⟩ := ih (i + 1) s₂ (log ++
        [.run executable_path [] test_case.input config execution] ++
        [.evaluate execution test_case.expected_output judgement])
      refine ⟨t, ?_⟩
      simp only [hv, ne_eq, not_true_eq_false, if_false]
      rw [← List.append_assoc]
      exact ht.trans (by simp [answers, alternation])
    · refine ⟨s₂, ?_⟩
      simp [hv]

end

end TestRunner

/-! ## The submission service -/

/-- `SubmissionService::evaluate` with its dereference of
`failed_judge_result`, which is undefined when the optional is empty. -/
def SubmissionService.evaluateChecked {σ : Type} (run : ProcessRun σ) (storage : σ → Verdict)
    (solution_path : String) (testsuite : List TestCase) (config : ExecutionConfig) (s : σ) :
    Option (SubmissionResult × σ) :=
  let output_file := outputFile solution_path
  let (compile_result, s) := compile run solution_path output_file s
  if compile_result.exit_code = 0 then
    let (runner_result, s) := TestRunner.run (fun input s => run output_file [] input config s)
      (judgeOn storage) testsuite s
    if runner_result.failed_test_index.isSome then
      runner_result.failed_judge_result.map fun judge_result =>
        (⟨compile_result, judge_result.verdict, runner_result⟩, s)
    else some (⟨compile_result, .accepted, runner_result⟩, s)
  else some (⟨compile_result, .compilationError, {}⟩, s)

section
variable {σ : Type} (run : ProcessRun σ) (storage : σ → Verdict) (solution_path : String)
  (testsuite : List TestCase) (config : ExecutionConfig) (s : σ)

/-- The answers in the test run of a submission. -/
def SubmissionService.answers : List (ExecutionResult × JudgeResult) :=
  TestRunner.answers (fun input s => run (outputFile solution_path) [] input config s)
    (judgeOn storage) testsuite (compile run solution_path (outputFile solution_path) s).2

theorem failFast_submission :
    TestRunner.FailFast 0 testsuite
      (SubmissionService.answers run storage solution_path testsuite config s)
      (TestRunner.run (fun input s => run (outputFile solution_path) [] input config s)
        (judgeOn storage) testsuite (compile run solution_path (outputFile solution_path) s).2).1 :=
  TestRunner.failFast_runFrom 0

/-- What the service makes of a fail-fast test run: the dereference is defined,
and the verdict is that of the last answer. -/
theorem submission_of_compiled
    (hexit : (compile run solution_path (outputFile solution_path) s).1.exit_code = 0) :
    let answers := SubmissionService.answers run storage solution_path testsuite config s
    let submission := SubmissionService.evaluate run storage solution_path testsuite config s
    SubmissionService.evaluateChecked run storage solution_path testsuite config s =
        some submission ∧
      ((answers.length = testsuite.length ∧ (∀ answer ∈ answers, answer.2.verdict = .accepted) ∧
          submission.1.verdict = .accepted) ∨
        ∃ passed execution judgement, answers = passed ++ [(execution, judgement)] ∧
          (∀ answer ∈ passed, answer.2.verdict = .accepted) ∧ judgement.verdict ≠ .accepted ∧
          submission.1.verdict = judgement.verdict) := by
  have hfast := failFast_submission run storage solution_path testsuite config s
  rcases hrun : TestRunner.run (fun input s => run (outputFile solution_path) [] input config s)
    (judgeOn storage) testsuite (compile run solution_path (outputFile solution_path) s).2
    with ⟨result, t⟩
  rw [hrun] at hfast
  simp only [SubmissionService.evaluateChecked, SubmissionService.evaluate, if_pos hexit, hrun]
  rcases hfast with ⟨hlen, hall, rfl⟩ | ⟨passed, execution, judgement, hans, -, hall, hv, rfl⟩
  · exact ⟨rfl, .inl ⟨hlen, hall, rfl⟩⟩
  · exact ⟨rfl, .inr ⟨passed, execution, judgement, hans, hall, hv, rfl⟩⟩

end

/-- The loop makes just the calls of `alternation`, stops after the first case
that is not accepted, and returns that case and its two results. So a compiled
submission is accepted iff all its cases are, and otherwise takes the verdict of
the first that is not. -/
theorem fail_fast_exact {σ : Type} (run : ProcessRun σ)
    (judge : ExecutionResult → List Byte → σ → JudgeResult × σ) (executable_path : String)
    (storage : σ → Verdict) (solution_path : String) (testsuite : List TestCase)
    (config : ExecutionConfig) (s : σ) :
    (let run' := fun input s => run executable_path [] input config s
     let recorded := TestRunner.run
       (fun input s => TestRunner.recordRun run executable_path [] input config s)
       (TestRunner.recordJudge judge) testsuite (s, [])
     let answers := TestRunner.answers run' judge testsuite s
     recorded.1 = (TestRunner.run run' judge testsuite s).1 ∧
       recorded.2.2 = TestRunner.alternation executable_path config testsuite answers ∧
       TestRunner.FailFast 0 testsuite answers recorded.1) ∧
    ((compile run solution_path (outputFile solution_path) s).1.exit_code = 0 →
      let answers := SubmissionService.answers run storage solution_path testsuite config s
      let submission := SubmissionService.evaluate run storage solution_path testsuite config s
      SubmissionService.evaluateChecked run storage solution_path testsuite config s =
          some submission ∧
        (submission.1.verdict = .accepted ↔ answers.length = testsuite.length ∧
          ∀ answer ∈ answers, answer.2.verdict = .accepted) ∧
        ∀ (i : Nat) (answer : ExecutionResult × JudgeResult), answers[i]? = some answer →
          answer.2.verdict ≠ .accepted →
          (∀ j < i, ∃ earlier, answers[j]? = some earlier ∧ earlier.2.verdict = .accepted) ∧
            submission.1.verdict = answer.2.verdict) := by
  refine ⟨?_, fun hexit => ?_⟩
  · obtain ⟨t, ht⟩ := TestRunner.runFrom_recorded run judge executable_path config 0 testsuite s []
    simp only [TestRunner.run, ht, List.nil_append, true_and]
    exact TestRunner.failFast_runFrom 0
  · obtain ⟨hchecked, hdecided⟩ :=
      submission_of_compiled run storage solution_path testsuite config s hexit
    refine ⟨hchecked, ?_⟩
    rcases hdecided with ⟨hlen, hall, hacc⟩ | ⟨passed, execution, judgement, hans, hall, hv, hlast⟩
    · refine ⟨⟨fun _ => ⟨hlen, hall⟩, fun _ => hacc⟩, fun i answer hi hrejected => ?_⟩
      exact absurd (hall answer (List.mem_of_getElem? hi)) hrejected
    · rw [hans, hlast]
      refine ⟨⟨fun h => absurd h hv, fun h => ?_⟩, fun i answer hi hrejected => ?_⟩
      · exact absurd (h.2 (execution, judgement) (by simp)) hv
      · -- only the last answer is not accepted
        have hlast : passed.length ≤ i := by
          by_contra hlt
          rw [List.getElem?_append_left (by omega)] at hi
          exact hrejected (hall answer (List.mem_of_getElem? hi))
        have heq : i = passed.length := by
          have := (List.getElem?_eq_some_iff.1 hi).1
          simp only [List.length_append, List.length_cons, List.length_nil] at this
          omega
        subst heq
        rw [List.getElem?_concat_length, Option.some.injEq] at hi
        subst hi
        refine ⟨fun j hj => ⟨passed[j], ?_, hall _ (List.getElem_mem hj)⟩, rfl⟩
        rw [List.getElem?_append_left hj, List.getElem?_eq_getElem hj]

end OnlineJudge
