import OnlineJudge.System
import OnlineJudge.Judge

/-!
# Verdicts

`Judge::evaluate` never looks at the status of an execution: it combines the
fields that `run` filled in, and one of its branches assigns no verdict.
-/

namespace OnlineJudge

/-! ## What `run` can return -/

/-- How the status of a returned result goes with the fields that the judge
reads. -/
structure ReturnShape (result : ExecutionResult) : Prop where
  failed : result.status = .runnerFailure ∨ result.status = .sandboxFailure →
    result.exit_code = 1 ∧ result.terminated_by_signal = false
  timedOut : result.status = .timedOut → result.wall_time_limit_exceeded = true
  signaled : result.status = .signaled → result.terminated_by_signal = true
  completed : result.status = .completed → result.terminated_by_signal = false

/-- The result is as it was created until `Terminated` is settled, and only the
classification is left after that. -/
structure Shaped (r : Runner) : Prop where
  ordered : r.Ordered
  running : r.pc ≠ .returned → r.result.status = .runnerFailure
  unsettled : r.pc ≠ .returned → ¬ (r.pc = .loop ∧ r.submission_finished = true) →
    r.result.exit_code = 1 ∧ r.result.terminated_by_signal = false
  settled : r.pc = .loop → r.submission_finished = true →
    r.result.terminated_by_signal = WIFSIGNALED r.status
  returned : r.pc = .returned → ReturnShape r.result

variable {q : Request} {acts : List Act} {w w' : World} {x : Answer} {a : Act}

theorem terminated_by_signal_finalizeStatus (result : ExecutionResult) (status : Word32)
    (h : result.terminated_by_signal = false) :
    (result.finalizeStatus status).terminated_by_signal = WIFSIGNALED status := by
  unfold ExecutionResult.finalizeStatus
  split
  · rename_i he
    rw [not_signaled_of_exited he, h]
  · split <;> simp_all

theorem returnShape_classify {result : ExecutionResult} {status : Word32}
    (h : result.terminated_by_signal = WIFSIGNALED status) :
    ReturnShape (result.classify status) := by
  unfold ExecutionResult.classify
  split
  · constructor <;> simp_all
  · split <;> constructor <;> simp_all

namespace Shaped

theorem finishing (h : Shaped w.runner) (hm : Runner.Move w x w') (hpc : w.runner.pc = .loop)
    (hf : w.runner.submission_finished = true) : w' = w ∨ w'.runner = w.runner.finish := by
  have := h.ordered.finishing hf
  rcases hm.of_loop hpc with rfl | rfl
  · exact .inl rfl
  · refine .inr ?_
    grind -linarith

theorem runner (h : Shaped w.runner) (hm : Runner.Move w x w') : Shaped w'.runner := by
  by_cases hlate : w.runner.pc = .loop ∧ w.runner.submission_finished = true
  · rcases h.finishing hm hlate.1 hlate.2 with rfl | hw
    · exact h
    · have hshape := returnShape_classify (h.settled hlate.1 hlate.2)
      refine ⟨h.ordered.move hm, ?_, ?_, ?_, fun _ => ?_⟩
      · simp [hw, Runner.finish, Runner.give]
      · simp [hw, Runner.finish, Runner.give]
      · simp [hw, Runner.finish, Runner.give]
      rw [hw]
      exact ⟨hshape.failed, hshape.timedOut, hshape.signaled, hshape.completed⟩
  · obtain ⟨hord, hrun, huns, hset, hret⟩ := h
    have hfin := hord.finishing
    refine ⟨hord.move hm, ?_, ?_, ?_, ?_⟩
    · cases hm.advance <;> grind -linarith
    · have := hord.settling
      cases hm.advance <;> grind -linarith
    · intro hpc' hf'
      cases hm.advance with
      | settled hpc _ now h hs =>
        rw [h, hs.1]
        exact terminated_by_signal_finalizeStatus _ _ (huns (by simp [hpc]) (by simp [hpc])).2
      | _ => grind -linarith
    · intro hpc'
      cases hm.advance with
      | failed hpc _ state status hstatus h =>
        obtain ⟨hexit, hsig⟩ := huns hpc hlate
        have := hrun hpc
        rw [h]
        constructor <;> grind -linarith
      | finished hpc =>
        have := hord.reaping
        grind -linarith
      | _ => grind -linarith

theorem keep (h : Shaped w.runner) (hm : Move w a w') : Shaped w'.runner := by
  cases hm with
  | runner hm => exact h.runner hm
  | supervisor hm => rw [hm.runner]; exact h
  | childA hm => rw [hm.runner]; exact h
  | childB hm => rw [hm.runner]; exact h
  | _ => exact h

theorem init (q : Request) : Shaped (World.init q).runner :=
  ⟨⟨nofun, nofun, nofun, nofun, nofun, nofun⟩, fun _ => rfl, fun _ _ => ⟨rfl, rfl⟩, nofun, nofun⟩

theorem reach (h : Runs q acts w) : Shaped w.runner :=
  Machine.run_keeps (I := fun w => Shaped w.runner) (fun _ _ _ hw ht => hw.keep (moves_step ht))
    (init q) h

end Shaped

theorem CanReturn.shape {result : ExecutionResult} (h : CanReturn result) : ReturnShape result := by
  obtain ⟨q, acts, w, hw, hpc, rfl⟩ := h
  exact (Shaped.reach hw).returned hpc

/-! ## The judge -/

/-- The branch of `Judge::evaluate` that assigns no verdict: a signal that is
neither `SIGXCPU` nor `SIGSEGV`, within the wall limit. -/
def Unassigned (execution : ExecutionResult) : Bool :=
  execution.terminated_by_signal && !execution.wall_time_limit_exceeded &&
    execution.signal_number ≠ SIGXCPU && execution.signal_number ≠ SIGSEGV

section
variable {execution : ExecutionResult} {expected : List Byte} {u v : Verdict}

theorem evaluate_of_unassigned (h : Unassigned execution = true) :
    (evaluate u execution expected).verdict = u := by
  simp only [Unassigned, Bool.and_eq_true, Bool.not_eq_true', decide_eq_true_eq] at h
  obtain ⟨⟨⟨hsig, hwall⟩, hx⟩, hv⟩ := h
  simp [evaluate, hsig, hwall, hx, hv]

theorem evaluate_of_assigned (h : Unassigned execution = false) :
    (evaluate u execution expected).verdict = (evaluate v execution expected).verdict := by
  unfold evaluate
  simp only [Unassigned] at h
  split
  · split
    · rfl
    · split
      · rfl
      · split <;> simp_all
  · split
    · rfl
    · split <;> rfl

theorem evaluate_timeLimitExceeded (h : execution.wall_time_limit_exceeded = true) :
    (evaluate u execution expected).verdict = .timeLimitExceeded ↔
      execution.terminated_by_signal = true := by
  unfold evaluate
  grind -linarith

theorem evaluate_accepted_iff :
    (evaluate u execution expected).verdict = .accepted ↔
      Unassigned execution = true ∧ u = .accepted ∨
      execution.terminated_by_signal = false ∧ execution.exit_code = 0 ∧
        execution.stdout_output = expected := by
  unfold evaluate Unassigned
  grind -linarith

end

/-! ## Time limits and acceptance -/

section
variable {σ : Type} (run : List Byte → σ → ExecutionResult × σ) (storage : σ → Verdict)

/-- `Judge::evaluate` as the judge of a test run; what its storage holds depends
on the state. -/
def judgeOn (execution : ExecutionResult) (expected_output : List Byte) (s : σ) :
    JudgeResult × σ :=
  (evaluate (storage s) execution expected_output, s)

/-- The verdict of one pass of the test runner. -/
def verdictOf (call : TestRunner.Call σ) : Verdict :=
  (evaluate (storage call.state) call.execution call.test_case.expected_output).verdict

/-- A timed out execution is judged so, and only a completed execution with exit
code 0 and the expected output passes, iff every timed out execution ended by a
signal and no verdict is left to storage that reads as accepted. -/
theorem only_completed_passes_iff (hrun : ∀ input s, CanReturn (run input s).1)
    (suite : List TestCase) (s : σ) :
    (∀ (i : Nat) (call : TestRunner.Call σ),
      (TestRunner.calls run (judgeOn storage) suite s)[i]? = some call →
      (call.execution.status = .timedOut → verdictOf storage call = .timeLimitExceeded) ∧
      ((TestRunner.run run (judgeOn storage) suite s).1.Passed i →
        call.execution.status = .completed ∧ call.execution.exit_code = 0 ∧
          call.execution.stdout_output = call.test_case.expected_output)) ↔
    ∀ (i : Nat) (call : TestRunner.Call σ),
      (TestRunner.calls run (judgeOn storage) suite s)[i]? = some call →
      (call.execution.status = .timedOut → call.execution.terminated_by_signal = true) ∧
      (Unassigned call.execution = true → storage call.state ≠ .accepted) := by
  refine forall_congr' fun i => forall_congr' fun call => forall_congr' fun hc => ?_
  obtain ⟨input, s', hr⟩ := TestRunner.mem_calls_run (List.mem_of_getElem? hc)
  obtain ⟨hfailed, htimed, hsig, hdone⟩ : ReturnShape call.execution := hr ▸ (hrun input s').shape
  have hwall (h : call.execution.wall_time_limit_exceeded = true) :
      verdictOf storage call = .timeLimitExceeded ↔
        call.execution.terminated_by_signal = true :=
    evaluate_timeLimitExceeded h
  have hpass : (TestRunner.run run (judgeOn storage) suite s).1.Passed i ↔
      Unassigned call.execution = true ∧ storage call.state = .accepted ∨
      call.execution.terminated_by_signal = false ∧ call.execution.exit_code = 0 ∧
        call.execution.stdout_output = call.test_case.expected_output :=
    (TestRunner.passed_iff hc).trans evaluate_accepted_iff
  rw [hpass]
  have hsignal (h : Unassigned call.execution = true) :
      call.execution.terminated_by_signal = true := by
    simp only [Unassigned, Bool.and_eq_true] at h
    exact h.1.1.1
  cases hst : call.execution.status <;> grind -linarith

theorem calls_const (result : ExecutionResult) (test_case : TestCase) (s : σ) :
    TestRunner.calls (fun _ s => (result, s)) (judgeOn storage) [test_case] s =
      [⟨test_case, result, s⟩] := by
  simp [TestRunner.calls]

end

/-- The deadline passes, `Terminate` is sent, and the submission exits before
anything kills it. -/
def timesOut (wait_status : Word32) : List Act :=
  boot ++ [Act.tick 1000000000, .runner .ok, .runner .ok, .submission (.finish wait_status)] ++
    List.replicate 5 (Act.childA .ok) ++
    [Act.supervisor (.ready false true), .supervisor .ok, .supervisor (.reap .zero)] ++
    List.replicate 3 (Act.supervisor .ok) ++ [Act.runner (.events { control := true })] ++
    List.replicate 4 (Act.runner .ok)

theorem only_completed_passes_iff_killed :
    ∃ result, CanReturn result ∧ result.status = .timedOut ∧
      ∀ (i : Nat) (call : TestRunner.Call Unit),
        (TestRunner.calls (fun _ s => (result, s)) (judgeOn fun _ => .accepted) [⟨[], []⟩] ())[i]? =
          some call →
        (call.execution.status = .timedOut →
          verdictOf (fun _ => .accepted) call = .timeLimitExceeded) ∧
        ((TestRunner.run (fun _ s => (result, s)) (judgeOn fun _ => .accepted)
            [⟨[], []⟩] ()).1.Passed i →
          call.execution.status = .completed ∧ call.execution.exit_code = 0 ∧
            call.execution.stdout_output = call.test_case.expected_output) := by
  obtain ⟨w, hw, hpc, hst, hsig, hwall⟩ : ∃ w, Runs ⟨[], 1000, 0⟩ (timesOut 9) w ∧
      w.runner.pc = .returned ∧ w.runner.result.status = .timedOut ∧
      w.runner.result.terminated_by_signal = true ∧
      Unassigned w.runner.result = false := exists_run (by decide +kernel)
  have hr : CanReturn w.runner.result := ⟨_, _, w, hw, hpc, rfl⟩
  refine ⟨_, hr, hst, (only_completed_passes_iff (fun _ s => (w.runner.result, s))
    (fun _ => .accepted) (fun _ _ => hr) [⟨[], []⟩] ()).2 fun i call hc => ?_⟩
  rw [calls_const] at hc
  rcases List.mem_singleton.1 (List.mem_of_getElem? hc) with rfl
  exact ⟨fun _ => hsig, by simp [hwall]⟩

/-- Such an execution is accepted when it ends by itself with exit code 0. -/
theorem timed_out_accepted :
    ¬ ∀ (σ : Type) (run : List Byte → σ → ExecutionResult × σ) (storage : σ → Verdict),
      (∀ input s, CanReturn (run input s).1) → ∀ (suite : List TestCase) (s : σ) (i : Nat)
        (call : TestRunner.Call σ),
      (TestRunner.calls run (judgeOn storage) suite s)[i]? = some call →
      (call.execution.status = .timedOut → verdictOf storage call = .timeLimitExceeded) ∧
      ((TestRunner.run run (judgeOn storage) suite s).1.Passed i →
        call.execution.status = .completed ∧ call.execution.exit_code = 0 ∧
          call.execution.stdout_output = call.test_case.expected_output) := by
  intro h
  obtain ⟨w, hw, hpc, hst, hv⟩ : ∃ w, Runs ⟨[], 1000, 0⟩ (timesOut 0) w ∧
      w.runner.pc = .returned ∧ w.runner.result.status = .timedOut ∧
      (evaluate .wrongAnswer w.runner.result []).verdict = .accepted :=
    exists_run (by decide +kernel)
  have htle := (h Unit (fun _ s => (w.runner.result, s)) (fun _ => .wrongAnswer)
    (fun _ _ => ⟨_, _, w, hw, hpc, rfl⟩) [⟨[], []⟩] () 0 ⟨⟨[], []⟩, w.runner.result, ()⟩
    (by rw [calls_const]; rfl)).1 hst
  rw [verdictOf, hv] at htle
  cases htle

/-! ## Storage -/

end OnlineJudge
