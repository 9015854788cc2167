import OnlineJudge.Lib.WorkerPool
import OnlineJudge.Workers

/-!
# Worker pools

`drainOnce` and `drainAll` of `ExecutionWorkerPool` and `SubmissionWorkerPool`: a
batch is one call of `runNext` or `processNext` for each worker, and the batches
go on until one of them processed nothing. The i-th call gets its result from
`run i` or `evaluate i`.
-/

namespace OnlineJudge

variable {E : Type}

namespace ExecutionWorkerPool

variable (run : Nat → ExecutionRequest → Except E ExecutionResult)

def drainOnce (worker_count calls : Nat) (queue : ExecutionQueue) : Drain ExecutionHandle E :=
  WorkQueue.drainOnce handleKind (fun i handle => run i handle.request) worker_count 0 calls queue

def drainAll (worker_count : Nat) (queue : ExecutionQueue) : Drain ExecutionHandle E :=
  WorkQueue.drainAll handleKind (fun i handle => run i handle.request) worker_count 0 0 queue

end ExecutionWorkerPool

namespace SubmissionWorkerPool

variable (evaluate : Nat → SubmissionRequest → Except E SubmissionResult)

def drainOnce (worker_count calls : Nat) (queue : SubmissionQueue) : Drain SubmissionJob E :=
  WorkQueue.drainOnce jobKind (fun i job => evaluate i job.request) worker_count 0 calls queue

def drainAll (worker_count : Nat) (queue : SubmissionQueue) : Drain SubmissionJob E :=
  WorkQueue.drainAll jobKind (fun i job => evaluate i job.request) worker_count 0 0 queue

end SubmissionWorkerPool

/-- A batch processes as many jobs as there are workers, or all that wait. -/
theorem drainOnce_takes_batch (worker_count calls : Nat) :
    (∀ (run : Nat → ExecutionRequest → Except E ExecutionResult) (queue : ExecutionQueue),
      (∀ handle ∈ queue.pending, ∀ i, ∃ result, run i handle.request = .ok result) →
      let drained := ExecutionWorkerPool.drainOnce run worker_count calls queue
      drained.outcome = .ok (min worker_count (ExecutionQueue.pendingCount queue)) ∧
        drained.queue.pending = queue.pending.drop worker_count) ∧
    ∀ (evaluate : Nat → SubmissionRequest → Except E SubmissionResult) (queue : SubmissionQueue),
      (∀ job ∈ queue.pending, ∀ i, ∃ result, evaluate i job.request = .ok result) →
      let drained := SubmissionWorkerPool.drainOnce evaluate worker_count calls queue
      drained.outcome = .ok (min worker_count (SubmissionQueue.pendingCount queue)) ∧
        drained.queue.pending = queue.pending.drop worker_count := by
  constructor
  · intro run queue hrun
    obtain ⟨_, _, heq⟩ := WorkQueue.drainOnce_of_returns handleKind
      (fun i handle => run i handle.request) hrun worker_count 0 calls
    rw [Nat.zero_add] at heq
    exact ⟨congrArg Drain.outcome heq, congrArg (·.queue.pending) heq⟩
  · intro evaluate queue hevaluate
    obtain ⟨_, _, heq⟩ := WorkQueue.drainOnce_of_returns jobKind
      (fun i job => evaluate i job.request) hevaluate worker_count 0 calls
    rw [Nat.zero_add] at heq
    exact ⟨congrArg Drain.outcome heq, congrArg (·.queue.pending) heq⟩

/-- A pool with a worker empties its queue: it counts the jobs that were pending,
and publishes each of them once, evaluated, in the order of the queue. -/
theorem drainAll_drains {worker_count : Nat} (hworkers : 1 ≤ worker_count) :
    (∀ (run : Nat → ExecutionRequest → Except E ExecutionResult) (queue : ExecutionQueue),
      (∀ handle ∈ queue.pending, ∀ i, ∃ result, run i handle.request = .ok result) →
      ∃ published : List ExecutionHandle,
        List.Forall₂ (fun handle done => ∃ i result, run i handle.request = .ok result ∧
          done = handle.running.finished result) queue.pending published ∧
        (ExecutionWorkerPool.drainAll run worker_count queue).outcome =
          .ok (ExecutionQueue.pendingCount queue) ∧
        (ExecutionWorkerPool.drainAll run worker_count queue).queue =
          { queue with pending := [], completed := queue.completed ++ published }) ∧
    ∀ (evaluate : Nat → SubmissionRequest → Except E SubmissionResult) (queue : SubmissionQueue),
      (∀ job ∈ queue.pending, ∀ i, ∃ result, evaluate i job.request = .ok result) →
      ∃ published : List SubmissionJob,
        List.Forall₂ (fun job done => ∃ i result, evaluate i job.request = .ok result ∧
          done = job.running.finished result) queue.pending published ∧
        (SubmissionWorkerPool.drainAll evaluate worker_count queue).outcome =
          .ok (SubmissionQueue.pendingCount queue) ∧
        (SubmissionWorkerPool.drainAll evaluate worker_count queue).queue =
          { queue with pending := [], completed := queue.completed ++ published } := by
  constructor
  · intro run queue hrun
    obtain ⟨published, hpublished, hout, hqueue⟩ :=
      WorkQueue.drainAll_of_returns handleKind
        (fun i handle => run i handle.request) hworkers hrun 0 0
    rw [Nat.zero_add] at hout
    exact ⟨published, hpublished, hout, hqueue⟩
  · intro evaluate queue hevaluate
    obtain ⟨published, hpublished, hout, hqueue⟩ :=
      WorkQueue.drainAll_of_returns jobKind
        (fun i job => evaluate i job.request) hworkers hevaluate 0 0
    rw [Nat.zero_add] at hout
    exact ⟨published, hpublished, hout, hqueue⟩

/-- Three handles and two workers, so the second batch is a partial one. -/
theorem drainAll_drains_three :
    let handle (execution_id : BitVec 64) : ExecutionHandle :=
      ⟨execution_id, ⟨"a.out", [], [], { limit := ⟨1, 1000, 0⟩ }⟩, .created, {}⟩
    let run (i : Nat) (_ : ExecutionRequest) : Except Empty ExecutionResult :=
      .ok { cpu_time := i }
    let drained := ExecutionWorkerPool.drainAll run 2 { pending := [handle 1, handle 2, handle 3] }
    drained.outcome = .ok 3 ∧ drained.queue.pending = [] ∧
      drained.queue.completed.map ExecutionHandle.execution_id = [1, 2, 3] := by
  intro handle run drained
  obtain ⟨published, hpublished, hout, hqueue⟩ :=
    (drainAll_drains (show 1 ≤ 2 by decide)).1 run
      { pending := [handle 1, handle 2, handle 3] } (fun _ _ i => ⟨{ cpu_time := i }, rfl⟩)
  refine ⟨hout, congrArg WorkQueue.pending hqueue, ?_⟩
  have hids : List.Forall₂ (fun handle done : ExecutionHandle =>
      handle.execution_id = done.execution_id) [handle 1, handle 2, handle 3] published :=
    hpublished.imp (by
      rintro _ _ ⟨_, _, _, rfl⟩
      rfl)
  have heq := List.forall₂_map_left_iff.2 (List.forall₂_map_right_iff.2 hids)
  rw [List.forall₂_eq_eq_eq] at heq
  exact (congrArg _ (congrArg WorkQueue.completed hqueue)).trans heq.symm

end OnlineJudge
