import OnlineJudge.Lib.WorkQueue
import OnlineJudge.Result

/-!
# The execution scheduler

`runner/execution_scheduler.hpp`. Every method of `ExecutionQueue` holds the
mutex from start to end and is one step. `runNext` is two: it takes a handle,
and completes it once `ProcessRunner::run` has returned.
-/

namespace OnlineJudge

/-! ## Requests and handles -/

/-- Durations are in the unit of their `std::chrono` type. -/
structure ExecutionLimits where
  cpu_limit : Int
  wall_limit : Int
  memory_limit : Nat
  deriving DecidableEq, Repr

inductive NetworkPolicy
  | disabled | loopbackOnly | enabled
  deriving DecidableEq, Repr

inductive FileSystemPolicy
  | restricted
  deriving DecidableEq, Repr

inductive SyscallPolicy
  | standard
  deriving DecidableEq, Repr

structure SandboxConfig where
  network_policy : NetworkPolicy := .disabled
  filesystem_policy : FileSystemPolicy := .restricted
  syscall_policy : SyscallPolicy := .standard
  max_processes : Nat := 20
  deriving DecidableEq, Repr

structure ExecutionConfig where
  limit : ExecutionLimits
  sandbox : SandboxConfig := {}
  deriving DecidableEq, Repr

structure ExecutionRequest where
  executable_path : String
  args : List String
  input : List Byte
  config : ExecutionConfig
  deriving DecidableEq, Repr

structure ExecutionHandle where
  execution_id : BitVec 64
  request : ExecutionRequest
  state : ExecutionState := .created
  result : ExecutionResult := {}
  deriving DecidableEq, Repr

namespace ExecutionHandle

/-- `runNext` took the handle. -/
def running (handle : ExecutionHandle) : ExecutionHandle := { handle with state := .running }

/-- `ProcessRunner::run` returned: the state is copied from the result. -/
def finished (handle : ExecutionHandle) (result : ExecutionResult) : ExecutionHandle :=
  { handle with result, state := result.state }

def cancelled (handle : ExecutionHandle) : ExecutionHandle := { handle with state := .cancelled }

end ExecutionHandle

/-! ## The queue -/

abbrev ExecutionQueue := WorkQueue ExecutionHandle

namespace ExecutionQueue

/-- `generateExecutionId` gave this id. -/
def enqueue (queue : ExecutionQueue) (execution_id : BitVec 64) (request : ExecutionRequest) :
    ExecutionHandle × ExecutionQueue :=
  ({ execution_id, request }, WorkQueue.enqueue queue { execution_id, request })

def tryEnqueue (queue : ExecutionQueue) (execution_id : BitVec 64) (request : ExecutionRequest) :
    Option ExecutionHandle × ExecutionQueue :=
  match WorkQueue.tryEnqueue queue { execution_id, request } with
  | none => (none, queue)
  | some queue => (some { execution_id, request }, queue)

def tryDequeue (queue : ExecutionQueue) : Option (ExecutionHandle × ExecutionQueue) :=
  WorkQueue.tryDequeue queue

def complete (queue : ExecutionQueue) (handle : ExecutionHandle) : ExecutionQueue :=
  WorkQueue.complete queue handle

def cancel (queue : ExecutionQueue) (execution_id : BitVec 64) : Bool × ExecutionQueue :=
  WorkQueue.cancel queue (fun handle => handle.execution_id = execution_id)
    ExecutionHandle.cancelled

def pendingCount (queue : ExecutionQueue) : Nat := queue.pending.length

def drainCompleted (queue : ExecutionQueue) : List ExecutionHandle × ExecutionQueue :=
  WorkQueue.drain queue

end ExecutionQueue

/-! ## The scheduler -/

/-- The queue, the handles that calls of `runNext` hold, by thread, and the
vectors that `drainCompleted` returned. -/
abbrev ExecutionScheduler := WorkShop ExecutionHandle Nat

/-- How `runNext` and `cancel` treat a handle. -/
def handleKind : JobKind ExecutionHandle (BitVec 64 × ExecutionRequest) (BitVec 64)
    ExecutionResult where
  ticket handle := (handle.execution_id, handle.request)
  key := Prod.fst
  start := ExecutionHandle.running
  finish := ExecutionHandle.finished
  cancel := ExecutionHandle.cancelled
  ticket_start _ := rfl
  ticket_finish _ _ := rfl
  ticket_cancel _ := rfl

/-- One atomic step of a call. -/
inductive SchedulerCall
  | submit (execution_id : BitVec 64) (request : ExecutionRequest)
  /-- `runNext` calls `tryDequeue`. -/
  | dequeue (thread : Nat)
  /-- `run` returned to this thread, and `runNext` calls `complete`. -/
  | complete (thread : Nat) (result : ExecutionResult)
  | cancel (execution_id : BitVec 64)
  | drainCompleted
  deriving DecidableEq

namespace SchedulerCall

def work : SchedulerCall → WorkStep ExecutionHandle Nat (BitVec 64) ExecutionResult
  | submit execution_id request => .submit { execution_id, request }
  | dequeue thread => .take thread
  | complete thread result => .finish thread result
  | cancel execution_id => .cancel execution_id
  | drainCompleted => .drain

/-- The id and the request of a submission. -/
def submission : SchedulerCall → Option (BitVec 64 × ExecutionRequest)
  | submit execution_id request => some (execution_id, request)
  | _ => none

end SchedulerCall

namespace ExecutionScheduler

def step (scheduler : ExecutionScheduler) (call : SchedulerCall) : Option ExecutionScheduler :=
  WorkShop.step handleKind scheduler call.work

/-- `isFinished`. -/
def isFinished (handle : ExecutionHandle) : Bool :=
  match handle.state with
  | .finished | .timedOut | .signaled | .failed | .sandboxFailed | .runnerFailed | .cancelled =>
    true
  | .created | .starting | .running => false

variable {scheduler scheduler' : ExecutionScheduler} {calls : List SchedulerCall}

theorem run_work (h : Machine.run step scheduler calls = some scheduler') :
    Machine.run (WorkShop.step handleKind) scheduler (calls.map SchedulerCall.work) =
      some scheduler' := by
  induction calls generalizing scheduler with
  | nil => exact h
  | cons call calls ih =>
    obtain ⟨s, hs, h⟩ := Machine.run_cons.1 h
    exact Machine.run_cons.2 ⟨s, hs, ih h⟩

theorem submissions_work (calls : List SchedulerCall) :
    ((calls.map SchedulerCall.work).filterMap WorkShop.submission).map handleKind.ticket =
      calls.filterMap SchedulerCall.submission := by
  induction calls with
  | nil => rfl
  | cons call calls ih =>
    rw [List.map_cons, List.filterMap_cons, List.filterMap_cons]
    cases call with
    | submit => exact congrArg _ ih
    | _ => exact ih

end ExecutionScheduler

open ExecutionScheduler in
/-- Whatever the threads call, every submitted handle is in exactly one place;
handles are dequeued in the order of their submission, without the cancelled
ones; `cancel` succeeds iff the handle is still pending, and then the handle is
published once, as cancelled, and never run. -/
theorem scheduler_conserves {calls : List SchedulerCall} {scheduler : ExecutionScheduler}
    (h : Machine.run step {} calls = some scheduler)
    (hid : ((calls.filterMap SchedulerCall.submission).map Prod.fst).Nodup) :
    ((scheduler.queue.pending ++ scheduler.working.map Prod.snd ++
        (scheduler.drained.flatten ++ scheduler.queue.completed)).map
          fun handle => (handle.execution_id, handle.request)).Perm
        (calls.filterMap SchedulerCall.submission) ∧
      (scheduler.taken ++ scheduler.queue.pending).map ExecutionHandle.execution_id =
        ((calls.filterMap SchedulerCall.submission).map Prod.fst).filter
          (fun execution_id =>
            execution_id ∉ scheduler.cancelled.map ExecutionHandle.execution_id) ∧
      ∀ (before after : List SchedulerCall) (execution_id : BitVec 64) (then_ : ExecutionScheduler),
        calls = before ++ .cancel execution_id :: after →
        Machine.run step {} before = some then_ →
        ((ExecutionQueue.cancel then_.queue execution_id).1 = true ↔
          ∃ handle ∈ then_.queue.pending, handle.execution_id = execution_id) ∧
        ((ExecutionQueue.cancel then_.queue execution_id).1 = true →
          (∃ handle, handle.state = .cancelled ∧
            (scheduler.drained.flatten ++ scheduler.queue.completed).filter
              (fun handle => handle.execution_id = execution_id) = [handle]) ∧
          execution_id ∉ scheduler.taken.map ExecutionHandle.execution_id) := by
  have hrun := run_work h
  have hsub : scheduler.submitted.map handleKind.ticket =
      calls.filterMap SchedulerCall.submission := by
    rw [WorkShop.submitted_run hrun, List.nil_append, submissions_work]
  have hkeys : scheduler.submitted.map (WorkShop.key handleKind) =
      (calls.filterMap SchedulerCall.submission).map Prod.fst := by
    rw [← hsub, List.map_map]
    rfl
  have hd : (scheduler.submitted.map (WorkShop.key handleKind)).Nodup := hkeys ▸ hid
  have hacc : WorkShop.Accounted handleKind scheduler :=
    WorkShop.accounted_init.run hrun hd
  refine ⟨?_, ?_, ?_⟩
  · have := hacc.conserved
    rwa [hsub] at this
  · have := hacc.ordered
    rwa [hkeys] at this
  · intro before after execution_id then_ hcalls hbefore
    have hiff : (ExecutionQueue.cancel then_.queue execution_id).1 = true ↔
        ∃ handle ∈ then_.queue.pending, handle.execution_id = execution_id := by
      rw [ExecutionQueue.cancel, WorkQueue.cancel_iff]
      simp
    refine ⟨hiff, fun hc => ?_⟩
    obtain ⟨handle, hmem, hhas⟩ : ∃ handle ∈ scheduler.cancelled,
        handle.execution_id = execution_id := by
      rw [hcalls, Machine.run_append, hbefore, Option.bind_some, Machine.run_cons] at h
      obtain ⟨next, hnext, hafter⟩ := h
      obtain ⟨pending, hp, he⟩ := hiff.1 hc
      cases hf : then_.queue.pending.find? (fun handle => handle.execution_id = execution_id) with
      | none =>
        have := List.find?_eq_none.1 hf pending hp
        simp [he] at this
      | some handle =>
        refine ⟨handle, WorkShop.cancelled_run (run_work hafter) handle ?_, ?_⟩
        · cases hnext
          have hf' : then_.queue.pending.find?
              (fun j => WorkShop.key handleKind j = execution_id) = some handle := hf
          simp only [hf', Option.toList_some]
          exact List.mem_append_right _ (List.mem_singleton_self _)
        · simpa using List.find?_some hf
    subst hhas
    exact ⟨⟨handle.cancelled, rfl, hacc.published_cancelled hd hmem⟩,
      hacc.cancelled_not_taken hmem⟩

/-- Two submissions of which the first is cancelled and the second is run. -/
theorem scheduler_conserves_cancelled :
    let request : ExecutionRequest := ⟨"a.out", [], [], { limit := ⟨1, 1000, 0⟩ }⟩
    let calls : List SchedulerCall :=
      [.submit 1 request, .submit 2 request, .cancel 1, .dequeue 0, .complete 0 {}, .drainCompleted]
    ∃ scheduler, Machine.run ExecutionScheduler.step {} calls = some scheduler ∧
      (scheduler.taken ++ scheduler.queue.pending).map ExecutionHandle.execution_id = [2] ∧
      (∃ handle, handle.state = .cancelled ∧
        (scheduler.drained.flatten ++ scheduler.queue.completed).filter
          (fun handle => handle.execution_id = 1) = [handle]) ∧
      1 ∉ scheduler.taken.map ExecutionHandle.execution_id := by
  intro request calls
  refine ⟨_, rfl, ?_⟩
  obtain ⟨-, hord, hcancel⟩ := @scheduler_conserves calls _ rfl (by decide)
  exact ⟨hord, (hcancel [.submit 1 request, .submit 2 request] _ 1 _ rfl rfl).2 rfl⟩

end OnlineJudge
