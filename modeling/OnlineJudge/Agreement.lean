import OnlineJudge.Opening
import OnlineJudge.Scheduler

/-!
# State and status

A result carries a status, for the judge, and a state, which the scheduler copies
into the handle. The failure returns of the poll loop set the status alone.
-/

namespace OnlineJudge

/-- The state that goes with a status. -/
def ExecutionStatus.state : ExecutionStatus → ExecutionState
  | completed => .finished
  | timedOut => .timedOut
  | signaled => .signaled
  | sandboxFailure => .sandboxFailed
  | runnerFailure => .runnerFailed

/-- State and status agree. -/
def ExecutionResult.Consistent (result : ExecutionResult) : Prop :=
  result.state = result.status.state

instance (result : ExecutionResult) : Decidable result.Consistent := by
  unfold ExecutionResult.Consistent; infer_instance

/-- The poll loop is about to return a failure: `cleanup_after_failure` is under
way, or `finish_supervisor_terminal` after a `SetupFailed`. -/
def RunnerPc.failing (pc : RunnerPc) : Bool :=
  pc = .finishSetupFailed || pc.site.any Cleanup.afterReady

attribute [grind =] RunnerPc.failing ExecutionResult.Consistent ExecutionStatus.state

variable {q : Request} {acts : List Act} {w w' : World} {x : Answer} {a : Act}

/-! ## The returns of `run` -/

theorem ExecutionStatus.state_ne_created (status : ExecutionStatus) : status.state ≠ .created := by
  cases status <;> simp [state]

/-- A call leaves the state alone, and returns then only on a failure of the
loop; or it returns a result that agrees. -/
inductive Concludes (r r' : Runner) : Prop
  | open (hstate : r'.result.state = r.result.state)
    (hfailing : r.pc.failing = true → r'.pc.failing = true ∨ r'.pc = .returned)
    (hreturned : r'.pc = .returned → r.pc.failing = true ∨ r.pc = .returned)
  | closed (hpc : r.pc.failing = false) (hpc' : r'.pc = .returned) (h : r'.result.Consistent)

namespace Runner

theorem classify_consistent (result : ExecutionResult) (status : Word32) :
    (result.classify status).Consistent := by
  unfold ExecutionResult.classify
  split
  · rfl
  · split <;> rfl

section
variable {r r₀ : Runner}

/-- `cleanup_before_ready` is followed by both assignments, `cleanup_after_failure`
by one at most. -/
theorem concludes_endCleanup {site : Cleanup} (hpc : r.pc.failing = site.afterReady)
    (h : r₀.result = r.result) : Concludes r (r₀.endCleanup site) := by
  rcases site with unexpected | use
  · cases unexpected <;> exact .closed hpc rfl rfl
  · cases use <;> exact .open (by grind -linarith) (by grind -linarith) (fun _ => .inl hpc)

theorem concludes_afterReap {use : CleanupUse} (hpc : r.pc.failing = true)
    (h : r₀.result = r.result) : Concludes r (r₀.afterReap use) := by
  unfold afterReap
  split
  · exact .open (congrArg _ h) (fun _ => .inl rfl) nofun
  · exact concludes_endCleanup hpc h

theorem concludes_contained {site : Cleanup} (ok : Bool) (hpc : r.pc.failing = site.afterReady)
    (h : r₀.result = r.result) : Concludes r (r₀.contained ok site) := by
  rcases site with unexpected | use
  · cases ok
    · exact concludes_endCleanup hpc (by exact h)
    · exact .open (congrArg _ h) (fun hf => by rw [hpc] at hf; cases hf) nofun
  · have hcontain (r₁ : Runner) (h₁ : r₁.result = r.result) :
        Concludes r (r₁.afterContain use) := by
      unfold afterContain
      split
      · exact concludes_afterReap hpc h₁
      · exact .open (congrArg _ h₁) (fun _ => .inl rfl) nofun
    cases ok
    · exact hcontain _ h
    · exact hcontain _ h

theorem concludes_cleanupWaited {site : Cleanup} (ok : Bool) (hpc : r.pc.failing = site.afterReady)
    (h : r₀.result = r.result) : Concludes r (r₀.cleanupWaited ok site) := by
  rcases site with unexpected | use
  · exact .open (congrArg _ h) (fun hf => by rw [hpc] at hf; cases hf) nofun
  · cases ok
    · exact concludes_afterReap hpc (by exact h)
    · exact concludes_afterReap hpc (by exact h)

theorem concludes_finish {reaped : Bool} (hpc : r.pc.failing = false) :
    Concludes r { r with supervisor_reaped := reaped }.finish :=
  .closed hpc rfl (classify_consistent r.result r.status)

theorem concludes_nextIteration (hpc : r.pc = .loop) (now : Int) :
    Concludes r (r.nextIteration now) := by
  have hfailing : r.pc.failing = false := by simp [hpc, RunnerPc.failing, RunnerPc.site]
  unfold nextIteration
  split
  · split
    · exact concludes_finish hfailing
    · exact .open rfl (by simp [hfailing]) nofun
  · split <;> exact .open rfl (by simp [hfailing]) nofun

end

theorem failing_of_site {pc : RunnerPc} {site : Cleanup} (h : pc.site = some site)
    (hpc : pc ≠ .finishSetupFailed) : pc.failing = site.afterReady := by
  simp [RunnerPc.failing, h, hpc]

theorem Move.concludes (hm : Move w x w') : Concludes w.runner w'.runner := by
  cases hm with
  | again => exact .open rfl .inl .inr
  | setupFailed hpc => exact .closed (by simp [hpc, RunnerPc.failing, RunnerPc.site]) rfl rfl
  | got site | lost site =>
    cases site <;> exact .open (by grind -linarith) (by grind -linarith) (by grind -linarith)
  | sent site | sendFailed site =>
    cases site <;> exact .open (by grind -linarith) (by grind -linarith) (by grind -linarith)
  | waited site =>
    cases site with
    | reapFailed hpc => exact .closed (by simp [hpc, RunnerPc.failing, RunnerPc.site]) rfl rfl
    | loop hpc => exact concludes_finish (by simp [hpc, RunnerPc.failing, RunnerPc.site])
    | @cleanup site hpc =>
      exact concludes_cleanupWaited true (by simp [hpc, RunnerPc.failing, RunnerPc.site]) rfl
    | _ => exact .open (by grind -linarith) (by grind -linarith) (by grind -linarith)
  | waitFailed site =>
    cases site with
    | reapFailed hpc => exact .closed (by simp [hpc, RunnerPc.failing, RunnerPc.site]) rfl rfl
    | terminated hpc => exact .closed (by simp [hpc, RunnerPc.failing, RunnerPc.site]) rfl rfl
    | @cleanup site hpc =>
      exact concludes_cleanupWaited false (by simp [hpc, RunnerPc.failing, RunnerPc.site]) rfl
    | _ => exact .open (by grind -linarith) (by grind -linarith) (by grind -linarith)
  | looped hpc => exact concludes_nextIteration hpc _
  | @killFailed _ site hpc =>
    refine concludes_contained false (failing_of_site ?_ ?_) rfl <;> grind -linarith
  | @foundEmpty site hpc =>
    exact concludes_contained true (by simp [hpc, RunnerPc.failing, RunnerPc.site]) rfl
  | @foundPopulated _ site hpc =>
    exact concludes_contained false (by simp [hpc, RunnerPc.failing, RunnerPc.site]) rfl
  | @removeSkipped _ site hpc =>
    refine concludes_endCleanup (failing_of_site ?_ ?_) rfl <;> grind -linarith
  | @removed site hpc =>
    exact concludes_endCleanup (by simp [hpc, RunnerPc.failing, RunnerPc.site]) rfl
  | @removeFailed _ site hpc =>
    exact concludes_endCleanup (by simp [hpc, RunnerPc.failing, RunnerPc.site]) (by rfl)
  | _ => exact .open (by grind -linarith) (by grind -linarith) (by grind -linarith)

end Runner

/-! ## Runs -/

/-- What holds as long as the loop has not failed. -/
structure Sound (r : Runner) : Prop where
  created : r.pc ≠ .returned → r.result.state = .created
  returned : r.pc = .returned → r.result.Consistent

/-- What holds from the failure of the loop on. -/
structure Unsound (r : Runner) : Prop where
  failing : r.pc.failing = true ∨ r.pc = .returned
  created : r.result.state = .created

/-- A step of the runner that is still running, with what it concludes. -/
theorem concludes_step (ht : step w a = some w') :
    w'.runner = w.runner ∨ w.runner.pc ≠ .returned ∧ Concludes w.runner w'.runner := by
  rcases (moves_step ht).runner_cases with ⟨x, -, hm⟩ | h
  · by_cases hpc : w.runner.pc = .returned
    · exact .inl (runner_of_returned hpc ht)
    · exact .inr ⟨hpc, hm.concludes⟩
  · exact .inl h

theorem Sound.step (h : Sound w.runner) (hf : w.runner.pc.failing = false)
    (ht : step w a = some w') : Sound w'.runner := by
  rcases concludes_step ht with hsame | ⟨hpc, ⟨hstate, -, hret⟩ | ⟨-, hpc', hcons⟩⟩
  · rw [hsame]
    exact h
  · refine ⟨fun _ => hstate.trans (h.created hpc), fun hpc' => ?_⟩
    rcases hret hpc' with hfailing | hreturned
    · rw [hf] at hfailing
      cases hfailing
    · exact absurd hreturned hpc
  · exact ⟨fun hn => absurd hpc' hn, fun _ => hcons⟩

theorem Unsound.step (h : Unsound w.runner) (ht : step w a = some w') : Unsound w'.runner := by
  rcases concludes_step ht with hsame | ⟨hpc, ⟨hstate, hfailing, -⟩ | ⟨hf, -, -⟩⟩
  · rw [hsame]
    exact h
  · exact ⟨hfailing (h.failing.resolve_right hpc), hstate.trans h.created⟩
  · have := h.failing.resolve_right hpc
    rw [hf] at this
    cases this

/-- Before it returns, a run has touched no state, whether its loop failed or
not. -/
theorem created_reach (h : Runs q acts w) (hpc : w.runner.pc ≠ .returned) :
    w.runner.result.state = .created := by
  refine Machine.run_keeps
    (I := fun w => w.runner.pc ≠ .returned → w.runner.result.state = .created)
    (fun u b v hu hv hpc' => ?_) (fun _ => rfl) h hpc
  rcases concludes_step hv with hsame | ⟨hpc, ⟨hstate, -, -⟩ | ⟨-, hreturned, -⟩⟩
  · rw [hsame] at hpc' ⊢
    exact hu hpc'
  · exact hstate.trans (hu hpc)
  · exact absurd hreturned hpc'

/-- An execution that has returned. -/
structure Execution where
  request : Request
  acts : List Act
  world : World
  runs : Runs request acts world
  returned : world.runner.pc = .returned

namespace Execution

variable (execution : Execution)

def result : ExecutionResult := execution.world.runner.result

/-- The poll loop of the execution never comes to one of its failure returns. -/
def LoopSucceeds : Prop :=
  Machine.Along step (fun w _ => w.runner.pc.failing = false) (.init execution.request)
    execution.acts

instance : Decidable execution.LoopSucceeds := by unfold LoopSucceeds; infer_instance

variable {execution}

theorem consistent_of_loopSucceeds (h : execution.LoopSucceeds) :
    execution.result.Consistent := by
  have hsound : Sound execution.world.runner :=
    Machine.run_invariant (I := fun w => Sound w.runner) (fun _ _ _ hf hs ht => hs.step hf ht)
      ⟨fun _ => rfl, by simp [World.init]⟩ h execution.runs
  exact hsound.returned execution.returned

theorem created_of_not_loopSucceeds (h : ¬ execution.LoopSucceeds) :
    execution.result.state = .created := by
  obtain ⟨before, b, after, u, hacts, hu, hfailing⟩ := Machine.exists_of_not_along h
  rw [Bool.not_eq_false] at hfailing
  have hrest : Machine.run step u (b :: after) = some execution.world := by
    have := execution.runs
    rw [Runs, hacts, Machine.run_append, hu] at this
    exact this
  have hunsound : Unsound u.runner := by
    refine ⟨.inl hfailing, created_reach hu fun hpc => ?_⟩
    simp [hpc, RunnerPc.failing, RunnerPc.site] at hfailing
  exact (Machine.run_keeps (I := fun w => Unsound w.runner) (fun _ _ _ hs ht => hs.step ht)
    hunsound hrest).created

theorem consistent_iff : execution.result.Consistent ↔ execution.LoopSucceeds := by
  refine ⟨fun h => ?_, consistent_of_loopSucceeds⟩
  by_contra hn
  rw [ExecutionResult.Consistent, created_of_not_loopSucceeds hn] at h
  exact execution.result.status.state_ne_created h.symm

end Execution

/-! ## Handles -/

namespace ExecutionScheduler

variable {scheduler : ExecutionScheduler} {calls : List SchedulerCall}

/-- A published handle was cancelled, or has the result of an execution. -/
def Published (handle : ExecutionHandle) : Prop :=
  handle.state = .cancelled ∧ handle.result = {} ∨
    ∃ execution : Execution, handle.result = execution.result ∧
      handle.state = execution.result.state

theorem published_run (h : Machine.run step {} calls = some scheduler)
    (hres : ∀ thread result, .complete thread result ∈ calls →
      ∃ execution : Execution, execution.result = result) :
    ∀ handle ∈ scheduler.published, Published handle := by
  have halong : Machine.Along step (fun _ call => ∀ thread result,
      call = .complete thread result → ∃ execution : Execution, execution.result = result)
      {} calls :=
    Machine.along_of_forall fun call hcall _ thread result he => hres thread result (he ▸ hcall)
  refine (Machine.run_invariant
    (I := WorkShop.Staged (fun handle => handle.result = {}) (fun handle => handle.result = {})
      Published) (fun s call t hcall hs ht => ?_) ⟨by simp, by simp, by simp [WorkShop.published]⟩
    halong h).published
  refine hs.step ht (fun handle he => ?_) (fun _ hr => hr) (fun thread result handle he _ => ?_)
    fun _ hr => .inl ⟨rfl, hr⟩
  · cases call <;> cases he
    rfl
  · cases call <;> cases he
    obtain ⟨execution, hr⟩ := hcall thread result rfl
    exact .inr ⟨execution, hr.symm, congrArg ExecutionResult.state hr.symm⟩

/-- Every result of `run` is one of a loop that succeeded or of one that
failed. -/
theorem Published.isFinished_iff {handle : ExecutionHandle} (h : Published handle) :
    isFinished handle = true ↔
      ∀ execution : Execution, execution.result = handle.result → execution.LoopSucceeds := by
  rcases h with ⟨hstate, hresult⟩ | ⟨execution, hresult, hstate⟩
  · refine iff_of_true (by simp [isFinished, hstate]) fun execution he => ?_
    by_contra hn
    have := Execution.created_of_not_loopSucceeds hn
    rw [he, hresult] at this
    cases this
  · constructor
    · intro hf execution' he
      by_contra hn
      have hcreated := Execution.created_of_not_loopSucceeds hn
      rw [he, hresult, ← hstate] at hcreated
      simp [isFinished, hcreated] at hf
    · intro hall
      have hcons := Execution.consistent_of_loopSucceeds (hall execution hresult.symm)
      rw [ExecutionResult.Consistent] at hcons
      rw [isFinished, hstate, hcons]
      cases execution.result.status <;> rfl

end ExecutionScheduler

open ExecutionScheduler in
/-- State and status of a result agree iff the poll loop came to none of its
failure returns; and a handle that was drained is finished iff that is so of the
execution whose result it holds. -/
theorem agreement_iff (execution : Execution) :
    (execution.result.Consistent ↔ execution.LoopSucceeds) ∧
    ∀ (calls : List SchedulerCall) (scheduler : ExecutionScheduler),
      Machine.run ExecutionScheduler.step {} calls = some scheduler →
      (∀ thread result, .complete thread result ∈ calls →
        ∃ execution : Execution, execution.result = result) →
      ∀ handle ∈ scheduler.drained.flatten,
        isFinished handle = true ↔
          ∀ execution : Execution, execution.result = handle.result → execution.LoopSucceeds :=
  ⟨execution.consistent_iff, fun _ _ h hres handle hmem =>
    (published_run h hres handle (List.mem_append_left _ hmem)).isFinished_iff⟩

/-- The executable cannot be run: `execvp` answers `ENOENT`, and the failure
reaches the runner as a `SetupFailed` after `Ready`. -/
def execFails : List Act :=
  bootSupervisor ++ List.replicate 13 (Act.childA .ok) ++ List.replicate 14 (Act.childB .ok) ++
    [Act.childB (.fail ENOENT), .childB .ok, .supervisor (.ready false true), .supervisor .ok] ++
    List.replicate 4 (Act.childA .ok) ++ [Act.supervisor (.reap .zero)] ++
    List.replicate 3 (Act.supervisor .ok) ++
    [Act.runner .ok, .runner (.events { control := true })] ++ List.replicate 3 (Act.runner .ok)

open ExecutionScheduler in
/-- Such an execution is published in state `Created`. -/
theorem exec_failure_unfinished :
    (¬ ∀ execution : Execution, execution.result.Consistent) ∧
    ¬ ∀ (calls : List SchedulerCall) (scheduler : ExecutionScheduler),
      Machine.run ExecutionScheduler.step {} calls = some scheduler →
      (∀ thread result, .complete thread result ∈ calls →
        ∃ execution : Execution, execution.result = result) →
      ∀ handle ∈ scheduler.drained.flatten, isFinished handle = true := by
  obtain ⟨w, hw, hpc, hstate, hstatus⟩ : ∃ w, Runs ⟨[], 1000, 0⟩ execFails w ∧
      w.runner.pc = .returned ∧ w.runner.result.state = .created ∧
      w.runner.result.status = .sandboxFailure := exists_run (by decide +kernel)
  refine ⟨fun h => ?_, fun h => ?_⟩
  · have hcons := h ⟨_, _, w, hw, hpc⟩
    rw [ExecutionResult.Consistent, Execution.result, hstate, hstatus] at hcons
    cases hcons
  · let request : ExecutionRequest := ⟨"missing", [], [], { limit := ⟨1, 1000, 0⟩ }⟩
    have hf := h [.submit 1 request, .dequeue 0, .complete 0 w.runner.result, .drainCompleted] _ rfl
      (fun thread result hmem => ⟨⟨_, _, w, hw, hpc⟩, by simp at hmem; exact hmem.2.symm⟩)
      _ List.mem_cons_self
    simp [isFinished, handleKind, ExecutionHandle.finished, hstate] at hf

end OnlineJudge
