import OnlineJudge.Result

/-!
# The judge and the test runner

`judge/judge.cpp` and `testrunner/testrunner.cpp`. The local `JudgeResult` of
`Judge::evaluate` has no initialiser for its verdict, so what its storage held
before the call is an argument.
-/

namespace OnlineJudge

inductive Verdict
  | accepted | wrongAnswer | runtimeError | timeLimitExceeded | memoryLimitExceeded
  | compilationError | internalError
  deriving DecidableEq, Repr

structure JudgeResult where
  verdict : Verdict
  message : String := ""
  deriving DecidableEq, Repr

/-- `Judge::evaluate` on storage that holds `uninitialised`. -/
def evaluate (uninitialised : Verdict) (execution : ExecutionResult)
    (expected_output : List Byte) : JudgeResult :=
  let result : JudgeResult := { verdict := uninitialised }
  if execution.terminated_by_signal then
    if execution.wall_time_limit_exceeded then { result with verdict := .timeLimitExceeded }
    else if execution.signal_number = SIGXCPU then { result with verdict := .timeLimitExceeded }
    else if execution.signal_number = SIGSEGV then { result with verdict := .runtimeError }
    else result
  else if execution.exit_code ≠ 0 then { result with verdict := .runtimeError }
  else if execution.stdout_output ≠ expected_output then { result with verdict := .wrongAnswer }
  else { result with verdict := .accepted }

structure TestCase where
  input : List Byte
  expected_output : List Byte
  deriving DecidableEq, Repr

/-- An empty option everywhere means that all tests passed. -/
structure TestRunnerResult where
  failed_test_index : Option Nat := none
  failed_execution_result : Option ExecutionResult := none
  failed_judge_result : Option JudgeResult := none
  deriving DecidableEq, Repr

/-- `TestRunner::run` from test case `i` on. The runner and the judge are
objects with state `σ`, so their answers may depend on every earlier call. -/
def TestRunner.runFrom {σ : Type} (run : List Byte → σ → ExecutionResult × σ)
    (judge : ExecutionResult → List Byte → σ → JudgeResult × σ) (i : Nat) :
    List TestCase → σ → TestRunnerResult × σ
  | [], s => ({}, s)
  | test_case :: rest, s =>
    let (execution_result, s) := run test_case.input s
    let (judge_result, s) := judge execution_result test_case.expected_output s
    if judge_result.verdict ≠ .accepted then
      (⟨some i, some execution_result, some judge_result⟩, s)
    else runFrom run judge (i + 1) rest s

def TestRunner.run {σ : Type} (run : List Byte → σ → ExecutionResult × σ)
    (judge : ExecutionResult → List Byte → σ → JudgeResult × σ) (testsuite : List TestCase)
    (s : σ) : TestRunnerResult × σ :=
  TestRunner.runFrom run judge 0 testsuite s

/-- One pass of the loop of `TestRunner::run`: the test case, its execution, and
the state in which the judge is called. -/
structure TestRunner.Call (σ : Type) where
  test_case : TestCase
  execution : ExecutionResult
  state : σ

/-- The passes that `TestRunner::run` makes, in order. -/
def TestRunner.calls {σ : Type} (run : List Byte → σ → ExecutionResult × σ)
    (judge : ExecutionResult → List Byte → σ → JudgeResult × σ) :
    List TestCase → σ → List (TestRunner.Call σ)
  | [], _ => []
  | test_case :: rest, s =>
    let (execution_result, s) := run test_case.input s
    let (judge_result, s') := judge execution_result test_case.expected_output s
    ⟨test_case, execution_result, s⟩ ::
      if judge_result.verdict ≠ .accepted then [] else calls run judge rest s'

/-- The test runner went past test case `i`. -/
def TestRunnerResult.Passed (result : TestRunnerResult) (i : Nat) : Prop :=
  ∀ j, result.failed_test_index = some j → i < j

instance (result : TestRunnerResult) (i : Nat) : Decidable (result.Passed i) :=
  match h : result.failed_test_index with
  | none => .isTrue (by simp [TestRunnerResult.Passed, h])
  | some j => decidable_of_iff (i < j) (by simp [TestRunnerResult.Passed, h])

namespace TestRunner

variable {σ : Type} {run : List Byte → σ → ExecutionResult × σ}
  {judge : ExecutionResult → List Byte → σ → JudgeResult × σ} {suite : List TestCase} {s : σ}

theorem le_failed_test_index {i j : Nat}
    (h : (runFrom run judge i suite s).1.failed_test_index = some j) : i ≤ j := by
  induction suite generalizing i s with
  | nil => simp [runFrom] at h
  | cons test_case rest ih =>
    simp only [runFrom] at h
    split at h
    · simp only [Option.some.injEq] at h
      omega
    · have := ih h
      omega

theorem runFrom_passed_iff {i k : Nat} {call : Call σ}
    (hc : (calls run judge suite s)[k]? = some call) :
    (runFrom run judge i suite s).1.Passed (i + k) ↔
      (judge call.execution call.test_case.expected_output call.state).1.verdict = .accepted := by
  induction suite generalizing i k s with
  | nil => simp [calls] at hc
  | cons test_case rest ih =>
    simp only [calls] at hc
    simp only [runFrom]
    cases k with
    | zero =>
      simp only [List.getElem?_cons_zero, Option.some.injEq] at hc
      subst hc
      split
      · rename_i hv
        simp [TestRunnerResult.Passed, hv]
      · rename_i hv
        refine iff_of_true (fun j hj => ?_) (by simpa using hv)
        have := le_failed_test_index hj
        omega
    | succ k =>
      simp only [List.getElem?_cons_succ] at hc
      split at hc
      · simp at hc
      · rename_i hv
        rw [if_neg hv, show i + (k + 1) = i + 1 + k by omega]
        exact ih hc

theorem runFrom_of_rejected {i k : Nat} {call : Call σ}
    (hc : (calls run judge suite s)[k]? = some call)
    (hv : (judge call.execution call.test_case.expected_output call.state).1.verdict ≠ .accepted) :
    (runFrom run judge i suite s).1 = ⟨some (i + k), some call.execution,
      some (judge call.execution call.test_case.expected_output call.state).1⟩ := by
  induction suite generalizing i k s with
  | nil => simp [calls] at hc
  | cons test_case rest ih =>
    simp only [calls] at hc
    simp only [runFrom]
    cases k with
    | zero =>
      simp only [List.getElem?_cons_zero, Option.some.injEq] at hc
      subst hc
      rw [if_pos hv]
      rfl
    | succ k =>
      simp only [List.getElem?_cons_succ] at hc
      split at hc
      · simp at hc
      · rename_i hv'
        rw [if_neg hv', show i + (k + 1) = i + 1 + k by omega]
        exact ih hc

/-- The first test case that the judge rejects is the one recorded. -/
theorem run_of_rejected {i : Nat} {call : Call σ} (hc : (calls run judge suite s)[i]? = some call)
    (hv : (judge call.execution call.test_case.expected_output call.state).1.verdict ≠ .accepted) :
    (TestRunner.run run judge suite s).1 = ⟨some i, some call.execution,
      some (judge call.execution call.test_case.expected_output call.state).1⟩ := by
  simpa [TestRunner.run] using runFrom_of_rejected (i := 0) hc hv

/-- A test case passes iff the judge accepted its execution. -/
theorem passed_iff {i : Nat} {call : Call σ} (hc : (calls run judge suite s)[i]? = some call) :
    (TestRunner.run run judge suite s).1.Passed i ↔
      (judge call.execution call.test_case.expected_output call.state).1.verdict = .accepted := by
  simpa [TestRunner.run] using runFrom_passed_iff (i := 0) hc

theorem mem_calls_run {call : Call σ} (hc : call ∈ calls run judge suite s) :
    ∃ input s', call.execution = (run input s').1 := by
  induction suite generalizing s with
  | nil => simp [calls] at hc
  | cons test_case rest ih =>
    simp only [calls, List.mem_cons] at hc
    rcases hc with rfl | hc
    · exact ⟨_, _, rfl⟩
    · split at hc
      · simp at hc
      · exact ih hc

end TestRunner

end OnlineJudge
