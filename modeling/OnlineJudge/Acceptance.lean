import OnlineJudge.Billing
import OnlineJudge.FailFast

/-!
# Acceptance

From the processes of a submission to its verdict: when no execution meets a fault,
it is accepted for what the compiler and the submission themselves did.
-/

namespace OnlineJudge

/-- How Child B ended, and what it wrote to its stdout. -/
structure ChildEnd where
  wait_status : Word32
  stdout : List Byte
  deriving DecidableEq

/-- Child B exited with code 0. -/
def ChildEnd.succeeded (e : ChildEnd) : Bool :=
  WIFEXITED e.wait_status && WEXITSTATUS e.wait_status = 0

/-- What a test case asks for. -/
def ChildEnd.passes (e : ChildEnd) (test_case : TestCase) : Bool :=
  e.succeeded && e.stdout = test_case.expected_output

/-- What the end of Child B is worth within the wall limit. A signal that the judge
does not know leaves the verdict to its storage. -/
def ChildEnd.verdict (stored : Verdict) (e : ChildEnd) (test_case : TestCase) : Verdict :=
  if e.passes test_case then .accepted
  else if e.succeeded then .wrongAnswer
  else if WIFSIGNALED e.wait_status then
    if WTERMSIG e.wait_status = SIGXCPU then .timeLimitExceeded
    else if WTERMSIG e.wait_status = SIGSEGV then .runtimeError
    else stored
  else .runtimeError

/-- `run` returns this of an execution without a fault in which Child B ended so:
it kept to its wall limit, and the pipes were read dry before `Terminated` was
settled. -/
structure Observed (input : List Byte) (execution : ExecutionResult) (e : ChildEnd) : Prop where
  run : ∃ (q : Request) (acts : List Act) (w : World), q.input = input ∧ Runs q acts w ∧
    Machine.Along step (fun s a => blameless s a = true ∧ unheard s a = false ∧
      cutShort s a = false) (.init q) acts ∧
    Machine.Along step Drained (.init q) acts ∧
    w.runner.pc = .returned ∧ w.runner.result = execution ∧
    w.childB = .exited e.wait_status ∧ w.stdout.sent = e.stdout
  ended : WIFEXITED e.wait_status = true ∨ WIFSIGNALED e.wait_status = true
  within : execution.wall_time_limit_exceeded = false

namespace Observed

variable {input expected : List Byte} {execution : ExecutionResult} {e : ChildEnd} {u : Verdict}

/-- The result says how Child B ended, and a completed one what it wrote. -/
theorem report (h : Observed input execution e) :
    execution.terminated_by_signal = WIFSIGNALED e.wait_status ∧
    (WIFSIGNALED e.wait_status = true → execution.signal_number = WTERMSIG e.wait_status) ∧
    (execution.exit_code = 0 ↔ e.succeeded = true) ∧
    (e.succeeded = true → execution.stdout_output = e.stdout) := by
  obtain ⟨q, acts, w, -, hw, hs, hd, hpc, rfl, hB, hsent⟩ := h.run
  have hcapture := Capture.reach hw
  obtain ⟨ms, hacc⟩ := Account.reach hw hs
  obtain ⟨exceeded, now, status, usage, hresult, -, -, -, -, -, hin⟩ :=
    hacc.published (Findings.reach hw) hcapture hpc
  have hexceeded : exceeded = false := by
    have hwithin := h.within
    rwa [hresult] at hwithin
  obtain ⟨-, b_status, hB', hreport⟩ := hin hexceeded
  obtain rfl : e.wait_status = b_status := by
    rw [hB] at hB'
    cases hB'
    rfl
  have hreport := hreport h.ended
  refine ⟨by rw [hreport]; rfl, fun hsignaled => ?_, ?_, fun hexit => ?_⟩
  · rw [hreport]
    simp [ExecutionResult.report, hsignaled]
  · rw [hreport]
    cases hexited : WIFEXITED e.wait_status <;>
      simp [ExecutionResult.report, ChildEnd.succeeded, hexited]
  · have hexited : WIFEXITED e.wait_status = true := by
      simp only [ChildEnd.succeeded, Bool.and_eq_true] at hexit
      exact hexit.1
    have hdone : w.runner.result.status = .completed := by
      rw [hreport]
      simp [ExecutionResult.report, not_signaled_of_exited hexited]
    have hempty : ¬ Stuck w := fun hstuck => (Emptied.reach hw hd hstuck).2 hdone
    obtain ⟨hout, herr, hcaptured, -⟩ := hcapture.completed hdone
    rw [not_stuck_iff hout herr] at hempty
    rw [hcaptured, hcapture.out, hempty.1, hsent]

theorem not_signaled_of_succeeded (h : e.succeeded = true) : WIFSIGNALED e.wait_status = false := by
  simp only [ChildEnd.succeeded, Bool.and_eq_true] at h
  exact not_signaled_of_exited h.1

/-- The judge's verdict is what the end of Child B is worth. -/
theorem verdict (h : Observed input execution e) (u : Verdict) (test_case : TestCase) :
    (evaluate u execution test_case.expected_output).verdict = e.verdict u test_case := by
  obtain ⟨hsignal, hnumber, hexit, hout⟩ := h.report
  have hwithin := h.within
  unfold evaluate ChildEnd.verdict ChildEnd.passes
  by_cases hok : e.succeeded = true
  · have hsignaled := not_signaled_of_succeeded hok
    simp only [hsignal, hsignaled, hexit.2 hok, hout hok, hok]
    by_cases hexpected : e.stdout = test_case.expected_output <;> simp [hexpected]
  · have hcode : execution.exit_code ≠ 0 := fun h => hok (hexit.1 h)
    by_cases hsignaled : WIFSIGNALED e.wait_status = true
    · simp only [hsignal, hsignaled, hwithin, hnumber hsignaled, hok]
      by_cases hxcpu : WTERMSIG e.wait_status = SIGXCPU
      · simp [hxcpu]
      · have hne : SIGSEGV ≠ SIGXCPU := by decide
        by_cases hsegv : WTERMSIG e.wait_status = SIGSEGV <;> simp [hxcpu, hsegv, hne]
    · simp [hsignal, hsignaled, hcode, hok]

end Observed

theorem ChildEnd.verdict_eq_accepted_iff {e : ChildEnd} {test_case : TestCase} {stored : Verdict}
    (h : stored ≠ .accepted) :
    e.verdict stored test_case = .accepted ↔ e.passes test_case = true := by
  unfold verdict
  split
  · rename_i hpass
    exact iff_of_true rfl hpass
  · rename_i hfail
    refine iff_of_false (fun haccepted => ?_) hfail
    split at haccepted
    · cases haccepted
    · split at haccepted
      · split at haccepted
        · cases haccepted
        · split at haccepted
          · cases haccepted
          · exact h haccepted
      · cases haccepted

/-! ## The test run -/

/-- The first test case that is not passed, by the ends of Child B. -/
def firstFailed (testsuite : List TestCase) (ends : List ChildEnd) : Option Nat :=
  (testsuite.zip ends).findIdx? fun p => !p.2.passes p.1

theorem firstFailed_of_forall {testsuite : List TestCase} {ends : List ChildEnd}
    (h : List.Forall₂ (fun test_case e => e.passes test_case = true) testsuite ends) :
    firstFailed testsuite ends = none := by
  induction h with
  | nil => rfl
  | cons hpass _ ih =>
    rw [firstFailed, List.findIdx?_eq_none_iff] at ih ⊢
    intro p hp
    rcases List.mem_cons.1 hp with rfl | hp
    · simp [hpass]
    · exact ih p hp

section
variable {σ : Type} {run : List Byte → σ → ExecutionResult × σ} {storage : σ → Verdict}
  {testsuite : List TestCase} {ends : List ChildEnd} {s : σ}

/-- The test runner stops at the first test case that is not passed, with the
verdict that the end of Child B is worth. -/
theorem failed_test_of_ends (hstorage : ∀ s, storage s ≠ .accepted)
    (hends : List.Forall₂ (fun (call : TestRunner.Call σ) e =>
        Observed call.test_case.input call.execution e)
      (TestRunner.calls run (judgeOn storage) testsuite s) ends) (i : Nat) :
    (firstFailed testsuite ends = none ∧
      (TestRunner.runFrom run (judgeOn storage) i testsuite s).1 = {} ∧
      List.Forall₂ (fun test_case e => e.passes test_case = true) testsuite ends) ∨
    ∃ k test_case e execution judgement stored,
      firstFailed testsuite ends = some k ∧
      (TestRunner.runFrom run (judgeOn storage) i testsuite s).1 =
        ⟨some (i + k), some execution, some judgement⟩ ∧
      testsuite[k]? = some test_case ∧ ends[k]? = some e ∧
      judgement.verdict = e.verdict stored test_case ∧ judgement.verdict ≠ .accepted := by
  induction testsuite generalizing s ends i with
  | nil =>
    cases hends
    exact .inl ⟨rfl, rfl, .nil⟩
  | cons test_case rest ih =>
    rcases hr : run test_case.input s with ⟨execution, s₁⟩
    simp only [TestRunner.calls, judgeOn, hr] at hends
    obtain ⟨e, ends, hfirst, hrest, rfl⟩ := List.forall₂_cons_left_iff.1 hends
    have hverdict := hfirst.verdict (storage s₁) test_case
    have hiff : e.verdict (storage s₁) test_case = .accepted ↔ e.passes test_case = true :=
      ChildEnd.verdict_eq_accepted_iff (hstorage s₁)
    rw [← hverdict] at hiff
    simp only [TestRunner.runFrom, judgeOn, hr]
    by_cases hpass : e.passes test_case = true
    · have hv := hiff.2 hpass
      have hstep : firstFailed (test_case :: rest) (e :: ends) =
          (firstFailed rest ends).map (· + 1) := by
        simp [firstFailed, List.findIdx?_cons, hpass]
      rw [if_neg (by simp [hv])] at hrest
      rw [if_neg (by simp [hv]), hstep]
      rcases ih hrest (i + 1) with ⟨hnone, hresult, hall⟩ |
        ⟨k, failed, last, execution, judgement, stored, hk, hresult, htest, hend, hworth⟩
      · exact .inl ⟨by rw [hnone]; rfl, hresult, .cons hpass hall⟩
      · refine .inr ⟨k + 1, failed, last, execution, judgement, stored, by rw [hk]; rfl, ?_,
          htest, hend, hworth⟩
        rw [hresult, Nat.add_right_comm, Nat.add_assoc]
    · have hv : (evaluate (storage s₁) execution test_case.expected_output).verdict ≠ .accepted :=
        fun hv => hpass (hiff.1 hv)
      have hstop : firstFailed (test_case :: rest) (e :: ends) = some 0 := by
        simp [firstFailed, List.findIdx?_cons, hpass]
      rw [if_pos hv]
      exact .inr ⟨0, test_case, e, execution, _, storage s₁, hstop, rfl, rfl, rfl, hverdict, hv⟩

end

/-! ## The submission -/

section
variable {σ : Type} (run : ProcessRun σ) (storage : σ → Verdict) (solution_path : String)
  (testsuite : List TestCase) (config : ExecutionConfig) (s : σ)

/-- Without faults a submission is judged by the ends of its processes. It is
accepted iff the compiler exits with code 0 and on every test case the submission
does too and prints what is expected; the test case recorded is the first on which
it does not, and its end gives the verdict. -/
theorem judged_by_ends (hstorage : ∀ s, storage s ≠ .accepted) {compiler : ChildEnd}
    {ends : List ChildEnd}
    (hcompiler : Observed [] (SubmissionService.compilation run solution_path s) compiler)
    (hends : List.Forall₂ (fun (call : TestRunner.Call σ) e =>
        Observed call.test_case.input call.execution e)
      (SubmissionService.calls run storage solution_path testsuite config s) ends) :
    let submission := (SubmissionService.evaluate run storage solution_path testsuite config s).1
    (submission.verdict = .accepted ↔ compiler.succeeded = true ∧
      List.Forall₂ (fun test_case e => e.passes test_case = true) testsuite ends) ∧
    (compiler.succeeded = false → submission.verdict = .compilationError ∧
      submission.test_runner_result = {}) ∧
    (compiler.succeeded = true →
      submission.test_runner_result.failed_test_index = firstFailed testsuite ends ∧
      ∀ i, firstFailed testsuite ends = some i → ∃ test_case e stored,
        testsuite[i]? = some test_case ∧ ends[i]? = some e ∧
        submission.verdict = e.verdict stored test_case) := by
  obtain ⟨-, -, hexit, -⟩ := hcompiler.report
  simp only [SubmissionService.compilation] at hexit
  by_cases hok : compiler.succeeded = true
  · have hcompiled := hexit.2 hok
    simp only [SubmissionService.calls, compile, hcompiled, if_true] at hends
    have hfailed := failed_test_of_ends hstorage hends 0
    simp only [SubmissionService.evaluate, compile, hcompiled, if_true, hok, true_and]
    rcases hrun : TestRunner.run (fun input s => run (outputFile solution_path) [] input config s)
      (judgeOn storage) testsuite (run "g++" [solution_path, "-o", outputFile solution_path] []
        { limit := compileLimits } s).2 with ⟨result, t⟩
    rw [TestRunner.run] at hrun
    rw [hrun] at hfailed
    rcases hfailed with ⟨hnone, rfl, hall⟩ |
      ⟨k, failed, last, execution, judgement, stored, hk, rfl, htest, hend, hworth, hv⟩
    · refine ⟨iff_of_true rfl hall, by rintro ⟨⟩, fun _ => ⟨hnone.symm, fun i hi => ?_⟩⟩
      rw [hnone] at hi
      cases hi
    · refine ⟨iff_of_false hv fun hpass => ?_, by rintro ⟨⟩, fun _ => ⟨?_, fun i hi => ?_⟩⟩
      · rw [firstFailed_of_forall hpass] at hk
        cases hk
      · rw [hk, Nat.zero_add]
      · rw [hk, Option.some.injEq] at hi
        subst hi
        exact ⟨failed, last, stored, htest, hend, hworth⟩
  · have hnot : ¬ (run "g++" [solution_path, "-o", outputFile solution_path] []
        { limit := compileLimits } s).1.exit_code = 0 := fun h => hok (hexit.1 h)
    simp [SubmissionService.evaluate, compile, hnot, hok]

end

/-- The submission prints one byte, and the runner reads it before it sees
`Terminated`. -/
def printsAndExits : List Act :=
  writesAndExits ++ [Act.runner .ok, .runner (.events { stdout := true }), .runner (.count 1),
    .runner .ok, .runner (.events { control := true })] ++ List.replicate 4 (Act.runner .ok)

/-- It is accepted when that byte is what is expected. -/
theorem judged_by_ends_prints :
    ∃ execution : ExecutionResult, (SubmissionService.evaluate (fun _ _ _ _ s => (execution, s))
      (fun _ => .wrongAnswer) "main.cpp" [⟨[], [65]⟩] { limit := ⟨1, 1000, 0⟩ } ()).1.verdict =
        .accepted := by
  obtain ⟨w, hw, hpc, hwithin, hB, hsent, hexit⟩ : ∃ w, Runs ⟨[], 1000, 0⟩ printsAndExits w ∧
      w.runner.pc = .returned ∧ w.runner.result.wall_time_limit_exceeded = false ∧
      w.childB = .exited 0 ∧ w.stdout.sent = [65] ∧ w.runner.result.exit_code = 0 :=
    exists_run (by decide +kernel)
  have hobserved : Observed [] w.runner.result ⟨0, [65]⟩ :=
    ⟨⟨_, _, w, rfl, hw, by decide +kernel, by decide +kernel, hpc, rfl, hB, hsent⟩,
      .inl (by decide), hwithin⟩
  have hends : List.Forall₂ (fun (call : TestRunner.Call Unit) e =>
        Observed call.test_case.input call.execution e)
      (SubmissionService.calls (fun _ _ _ _ s => (w.runner.result, s)) (fun _ => .wrongAnswer)
        "main.cpp" [⟨[], [65]⟩] { limit := ⟨1, 1000, 0⟩ } ()) [⟨0, [65]⟩] := by
    simp only [SubmissionService.calls, compile, hexit, if_true, calls_const]
    exact .cons hobserved .nil
  obtain ⟨haccepted, -⟩ := judged_by_ends (fun _ _ _ _ s => (w.runner.result, s)) _ _ _ _ ()
    (fun _ => by decide) hobserved hends
  exact ⟨w.runner.result, haccepted.2 ⟨by decide, .cons (by decide) .nil⟩⟩

/-! ## A submission that never ends -/

variable {q : Request} {acts : List Act} {w w' : World} {x : Answer} {a : Act}

/-- The submission ends by itself. -/
def finishes : Act → Bool
  | .submission (.finish _) => true
  | _ => false

theorem Move.asked_mono (hm : Move w a w') (h : w.toSup.sent ≠ []) : w'.toSup.sent ≠ [] := by
  cases hm with
  | runner hm =>
    cases hm with
    | sent => simp [terminate_ne_nil]
    | _ => exact h
  | supervisor hm => rwa [hm.toSup_sent]
  | childA hm => rwa [hm.toSup]
  | childB hm => rwa [hm.toSup]
  | _ => exact h

/-- The children that have ended were killed, on a `Terminate`. -/
structure Slain (w : World) : Prop where
  killed : w.killed.childB = true → w.toSup.sent ≠ []
  childA : ∀ s, w.childA = .exited s → s = signalStatus SIGKILL
  childB : ∀ s, w.childB = .exited s → s = signalStatus SIGKILL ∧ w.toSup.sent ≠ []

namespace Slain

variable {usages : List Rusage} {ms : List Message}

theorem mirror_SIGKILL : ChildA.mirror (signalStatus SIGKILL) = signalStatus SIGKILL := by decide

/-- A step that ends no child and kills none. -/
theorem quiet (h : Slain w) (hm : Move w a w') (hk : w'.killed.childB = w.killed.childB)
    (hA : ∀ s, w'.childA = .exited s → w.childA = .exited s)
    (hB : ∀ s, w'.childB = .exited s → w.childB = .exited s) : Slain w' := by
  refine ⟨fun hkilled => hm.asked_mono (h.killed (hk ▸ hkilled)),
    fun s hs => h.childA s (hA s hs), fun s hs => ?_⟩
  obtain ⟨heq, hasked⟩ := h.childB s (hB s hs)
  exact ⟨heq, hm.asked_mono hasked⟩

/-- Child A hands on the end of Child B, and is not left without its release. -/
theorem keep_childA (h : Slain w) (hacc : Account usages ms w) (hx : x.fails = false)
    (hm : ChildA.Move w x w') : Slain w' := by
  have hr := hacc.unfailing.recorded
  have hquiet (hA : ∀ s, w'.childA = .exited s → w.childA = .exited s)
      (hB : ∀ s, w'.childB = .exited s → w.childB = .exited s) : Slain w' :=
    h.quiet (.childA hm) (by rw [hm.killed]) hA hB
  cases hm with
  | again => exact h
  | abandoned hpc hheld =>
    rcases hheld with ⟨hheld, hsync⟩ | ⟨e, rfl⟩
    · exact absurd hpc (hacc.not_stranded hheld hsync)
    · cases hx
  | toldControl hpc | toldStatus hpc | reportLost hpc => exact absurd hpc (hr.silentA _ _)
  | @setupDone _ rest =>
    refine hquiet (fun s hs => ?_) (fun _ => id)
    rcases ChildA.next_cases rest with hn | ⟨call, rest', hn⟩ <;> simp [hn] at hs
  | forked =>
    refine hquiet (fun s hs => by cases hs) (fun s hs => ?_)
    rcases ChildB.next_cases childBSetup with hn | ⟨call, rest', hn⟩ <;> simp [hn] at hs
  | @forwarded _ _ rest =>
    refine hquiet (fun s hs => ?_) (fun _ => id)
    dsimp only at hs
    split at hs <;> cases hs
  | @left b_status hpc =>
    obtain ⟨hkilled, -⟩ := h.childB b_status (hr.leave b_status (.inr hpc))
    refine ⟨h.killed, fun s hs => ?_, h.childB⟩
    cases hs
    rw [hkilled, mirror_SIGKILL]
  | _ => exact hquiet (fun s hs => by cases hs) (fun _ => id)

theorem keep_childB (h : Slain w) (hr : Recorded w) (hm : ChildB.Move w x w') : Slain w' := by
  have hquiet (hB : ∀ s, w'.childB = .exited s → w.childB = .exited s) : Slain w' :=
    h.quiet (.childB hm) (by rw [hm.killed]) (fun _ hs => hm.childA ▸ hs) hB
  cases hm with
  | again => exact h
  | @setupDone _ rest =>
    refine hquiet fun s hs => ?_
    rcases ChildB.next_cases rest with hn | ⟨call, rest', hn⟩ <;> simp [hn] at hs
  | setupFailed => exact hquiet fun s hs => by cases hs
  | told hpc | reportLost hpc => exact absurd hpc (hr.silentB _)

/-- The supervisor kills on a `Terminate`, or once Child A has ended. -/
theorem keep_supervisor (h : Slain w) (hacc : Account usages ms w)
    (hm : Supervisor.Move w x w') : Slain w' := by
  refine ⟨fun hk => ?_, fun s hs => ?_, fun s hs => ?_⟩
  · rw [hm.toSup_sent]
    by_cases hA : ∃ s, w.childA = .exited s
    · obtain ⟨s, hs⟩ := hA
      rcases hacc.unforced.left s hs with hasked | ⟨b_status, hB, -⟩
      · exact hasked
      · exact (h.childB b_status hB).2
    · obtain ⟨taken, unread, begun, hlive⟩ := hacc.live fun s hs => hA ⟨s, hs⟩
      have hsound := hlive.manned.sound
      cases hm with
      | @killWritten caller hpc =>
        cases caller with
        | loop => exact hacc.asked.killing (.inr hpc)
        | failure => simp [hpc, SupervisorPc.sound] at hsound
      | _ => exact h.killed hk
  · rcases hm.phases with ⟨-, hA, -, -⟩ | ⟨-, -, hA, -, -⟩ | ⟨-, -, hA, -⟩ | ⟨-, hA, -, -⟩
    · exact h.childA s (hA ▸ hs)
    · simp [hA] at hs
    · exact h.childA s (hA ▸ hs)
    · exact h.childA s (hA ▸ hs)
  · rw [hm.toSup_sent]
    exact h.childB s (hm.childB ▸ hs)

theorem keep_runner (h : Slain w) (hwatch : w.runner.pc.watching = true)
    (hm : Runner.Move w x w') : Slain w' := by
  refine h.quiet (.runner hm) ?_ (fun _ hs => hm.childA ▸ hs) (fun _ hs => hm.childB ▸ hs)
  cases hm with
  | killWritten hpc => simp [hpc, RunnerPc.watching] at hwatch
  | _ => rfl

theorem keep (h : Slain w) (hacc : Account usages ms w) (hb : blameless w a = true)
    (hf : finishes a = false) (hm : Move w a w') : Slain w' := by
  cases hm with
  | @childA x _ hm => exact h.keep_childA hacc (by cases x <;> first | rfl | cases hb) hm
  | childB hm => exact h.keep_childB hacc.unfailing.recorded hm
  | supervisor hm => exact h.keep_supervisor hacc hm
  | runner hm =>
    rcases hacc.session.watching with hwatch | hpc
    · exact h.keep_runner hwatch hm
    · rw [hm.of_returned hpc]
      exact h
  | diedA => exact ⟨h.killed, fun s hs => by cases hs; rfl, h.childB⟩
  | diedB hk => exact ⟨h.killed, h.childA, fun s hs => by cases hs; exact ⟨rfl, h.killed hk⟩⟩
  | finished => cases hf
  | _ => exact ⟨h.killed, h.childA, h.childB⟩

theorem init (q : Request) : Slain (.init q) := by constructor <;> simp [World.init]

end Slain

end OnlineJudge
