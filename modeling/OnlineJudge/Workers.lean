import OnlineJudge.SubmissionQueue

/-!
# Workers and exceptions

`ExecutionScheduler::runNext` and `SubmissionWorker::processNext` take a job,
evaluate it and publish it. Nothing in the repository catches an exception, so
one that is thrown during the evaluation takes the job with it.
-/

namespace OnlineJudge

/-- How `processNext` and `cancel` treat a job. -/
def jobKind : JobKind SubmissionJob (BitVec 64 × SubmissionRequest) (BitVec 64)
    SubmissionResult where
  ticket job := (job.submission_id, job.request)
  key := Prod.fst
  start := SubmissionJob.running
  finish := SubmissionJob.finished
  cancel := SubmissionJob.cancelled
  ticket_start _ := rfl
  ticket_finish _ _ := rfl
  ticket_cancel _ := rfl

/-- `runNext`, where `run` returns or throws. -/
def ExecutionScheduler.runNext {E : Type} (run : ExecutionRequest → Except E ExecutionResult)
    (queue : ExecutionQueue) : Except E Bool × ExecutionQueue :=
  WorkQueue.serve handleKind (fun handle => run handle.request) queue

/-- `processNext`, where `evaluate` returns or throws. -/
def SubmissionWorker.processNext {E : Type}
    (evaluate : SubmissionRequest → Except E SubmissionResult) (queue : SubmissionQueue) :
    Except E Bool × SubmissionQueue :=
  WorkQueue.serve jobKind (fun job => evaluate job.request) queue

/-- A call of `runNext` that no other thread interrupts, as two steps of a
thread. -/
theorem runNext_run {E : Type} (run : ExecutionRequest → Except E ExecutionResult)
    {floor : WorkFloor ExecutionHandle Nat} {thread : Nat} {handle : ExecutionHandle}
    {rest : ExecutionQueue} (hidle : thread ∉ floor.shop.working.map Prod.fst)
    (hq : ExecutionQueue.tryDequeue floor.shop.queue = some (handle, rest)) :
    ∃ floor', Machine.run (WorkFloor.step handleKind) floor
        [.step (.take thread), WorkFloor.ending thread (run handle.request)] = some floor' ∧
      floor'.shop.queue = (ExecutionScheduler.runNext run floor.shop.queue).2 :=
  WorkFloor.run_serve (fun handle => run handle.request) hidle hq

/-- The same for `processNext`. -/
theorem processNext_run {E : Type} (evaluate : SubmissionRequest → Except E SubmissionResult)
    {floor : WorkFloor SubmissionJob Nat} {thread : Nat} {job : SubmissionJob}
    {rest : SubmissionQueue} (hidle : thread ∉ floor.shop.working.map Prod.fst)
    (hq : SubmissionQueue.tryDequeue floor.shop.queue = some (job, rest)) :
    ∃ floor', Machine.run (WorkFloor.step jobKind) floor
        [.step (.take thread), WorkFloor.ending thread (evaluate job.request)] = some floor' ∧
      floor'.shop.queue = (SubmissionWorker.processNext evaluate floor.shop.queue).2 :=
  WorkFloor.run_serve (fun job => evaluate job.request) hidle hq

/-- The job that a worker takes is still there afterwards, once, iff its
evaluation returns; and of the jobs submitted in any history just those are
missing whose evaluation threw. -/
theorem evaluated_jobs_kept {E : Type} (run : ExecutionRequest → Except E ExecutionResult)
    (evaluate : SubmissionRequest → Except E SubmissionResult) :
    (∀ (queue rest : ExecutionQueue) (handle : ExecutionHandle),
      ExecutionQueue.tryDequeue queue = some (handle, rest) →
      let after := ExecutionScheduler.runNext run queue
      (((after.2.pending ++ after.2.completed).map handleKind.ticket).Perm
          ((queue.pending ++ queue.completed).map handleKind.ticket) ↔
        ∃ result, run handle.request = .ok result) ∧
      (∀ result, run handle.request = .ok result →
        after = (.ok true, rest.complete (handle.running.finished result))) ∧
      ∀ e, run handle.request = .error e → after = (.error e, rest)) ∧
    (∀ (queue rest : SubmissionQueue) (job : SubmissionJob),
      SubmissionQueue.tryDequeue queue = some (job, rest) →
      let after := SubmissionWorker.processNext evaluate queue
      (((after.2.pending ++ after.2.completed).map jobKind.ticket).Perm
          ((queue.pending ++ queue.completed).map jobKind.ticket) ↔
        ∃ result, evaluate job.request = .ok result) ∧
      (∀ result, evaluate job.request = .ok result →
        after = (.ok true, rest.complete (job.running.finished result))) ∧
      ∀ e, evaluate job.request = .error e → after = (.error e, rest)) ∧
    (∀ (events : List (WorkEvent ExecutionHandle Nat (BitVec 64) ExecutionResult))
        (floor : WorkFloor ExecutionHandle Nat),
      Machine.run (WorkFloor.step handleKind) {} events = some floor →
      ((floor.shop.places ++ floor.abandoned).map handleKind.ticket).Perm
          ((events.filterMap WorkFloor.submission).map handleKind.ticket) ∧
        floor.abandoned.length = events.countP WorkFloor.gaveUp) ∧
    ∀ (events : List (WorkEvent SubmissionJob Nat (BitVec 64) SubmissionResult))
        (floor : WorkFloor SubmissionJob Nat),
      Machine.run (WorkFloor.step jobKind) {} events = some floor →
      ((floor.shop.places ++ floor.abandoned).map jobKind.ticket).Perm
          ((events.filterMap WorkFloor.submission).map jobKind.ticket) ∧
        floor.abandoned.length = events.countP WorkFloor.gaveUp := by
  refine ⟨fun queue rest handle hq => ?_, fun queue rest job hq => ?_,
    fun _ _ => WorkFloor.places_run, fun _ _ => WorkFloor.places_run⟩
  · exact WorkQueue.serve_outcomes handleKind (fun handle => run handle.request) hq
  · exact WorkQueue.serve_outcomes jobKind (fun job => evaluate job.request) hq

/-- `std::bad_alloc` during the only execution. -/
theorem thrown_job_lost :
    ¬ ∀ (E : Type) (run : ExecutionRequest → Except E ExecutionResult)
        (queue rest : ExecutionQueue) (handle : ExecutionHandle),
      ExecutionQueue.tryDequeue queue = some (handle, rest) →
      let after := (ExecutionScheduler.runNext run queue).2
      ((after.pending ++ after.completed).map handleKind.ticket).Perm
        ((queue.pending ++ queue.completed).map handleKind.ticket) := by
  intro h
  have hlost := h Unit (fun _ => .error ())
    { pending := [⟨1, ⟨"a.out", [], [], { limit := ⟨1, 1000, 0⟩ }⟩, .created, {}⟩] } {}
    ⟨1, ⟨"a.out", [], [], { limit := ⟨1, 1000, 0⟩ }⟩, .created, {}⟩ rfl
  exact absurd hlost.length_eq (by decide)

end OnlineJudge
