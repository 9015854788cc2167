import OnlineJudge.Lib.BoundedQueue
import OnlineJudge.SubmissionQueue

/-!
# Admission

`ExecutionQueue` and `SubmissionQueue` are built with `max_pending`. Both have
two ways in, `enqueue` and `tryEnqueue`, and the bound is looked at by the second
one only.
-/

namespace OnlineJudge

/-! ## Calls of the two queues -/

inductive ExecutionQueueCall
  | enqueue (execution_id : BitVec 64) (request : ExecutionRequest)
  | tryEnqueue (execution_id : BitVec 64) (request : ExecutionRequest)
  | tryDequeue
  | complete (handle : ExecutionHandle)
  | cancel (execution_id : BitVec 64)
  | drainCompleted

namespace ExecutionQueue

/-- The queue after a call. -/
def step (queue : ExecutionQueue) : ExecutionQueueCall → Option ExecutionQueue
  | .enqueue execution_id request => some (enqueue queue execution_id request).2
  | .tryEnqueue execution_id request => some (tryEnqueue queue execution_id request).2
  | .tryDequeue =>
    match tryDequeue queue with
    | none => some queue
    | some (_, queue) => some queue
  | .complete handle => some (complete queue handle)
  | .cancel execution_id => some (cancel queue execution_id).2
  | .drainCompleted => some (drainCompleted queue).2

/-- At most `max_pending` handles wait; a request is refused just when so many
do, and a refusal leaves the queue as it is. -/
def Bounded (max_pending : Nat) (queue : ExecutionQueue) : Prop :=
  pendingCount queue ≤ max_pending ∧
    ∀ execution_id request,
      ((tryEnqueue queue execution_id request).1 = none ↔ pendingCount queue = max_pending) ∧
      ((tryEnqueue queue execution_id request).1 = none →
        (tryEnqueue queue execution_id request).2 = queue)

/-- Before a call of `enqueue`, fewer than `max_pending` handles wait. -/
def HasRoom (max_pending : Nat) (queue : ExecutionQueue) (call : ExecutionQueueCall) : Prop :=
  ∀ execution_id request, call = .enqueue execution_id request → pendingCount queue < max_pending

end ExecutionQueue

/-- `count` is the reading of the clock that goes into the id. -/
inductive SubmissionQueueCall
  | enqueue (count : Int) (request : SubmissionRequest)
  | tryEnqueue (count : Int) (request : SubmissionRequest)
  | tryDequeue
  | complete (job : SubmissionJob)
  | cancel (submission_id : BitVec 64)
  | drainCompleted

namespace SubmissionQueue

variable (hash : String → BitVec 64)

/-- The queue after a call. -/
def step (queue : SubmissionQueue) : SubmissionQueueCall → Option SubmissionQueue
  | .enqueue count request => some (enqueue hash count queue request).2
  | .tryEnqueue count request => some (tryEnqueue hash count queue request).2
  | .tryDequeue =>
    match tryDequeue queue with
    | none => some queue
    | some (_, queue) => some queue
  | .complete job => some (complete queue job)
  | .cancel submission_id => some (cancel queue submission_id).2
  | .drainCompleted => some (drainCompleted queue).2

/-- As for `ExecutionQueue`. -/
def Bounded (max_pending : Nat) (queue : SubmissionQueue) : Prop :=
  pendingCount queue ≤ max_pending ∧
    ∀ count request,
      ((tryEnqueue hash count queue request).1 = none ↔ pendingCount queue = max_pending) ∧
      ((tryEnqueue hash count queue request).1 = none →
        (tryEnqueue hash count queue request).2 = queue)

def HasRoom (max_pending : Nat) (queue : SubmissionQueue) (call : SubmissionQueueCall) : Prop :=
  ∀ count request, call = .enqueue count request → pendingCount queue < max_pending

end SubmissionQueue

/-! ## As calls of a work queue -/

namespace ExecutionQueue

def work : ExecutionQueueCall → QueueCall ExecutionHandle (BitVec 64)
  | .enqueue execution_id request => .enqueue { execution_id, request }
  | .tryEnqueue execution_id request => .tryEnqueue { execution_id, request }
  | .tryDequeue => .tryDequeue
  | .complete handle => .complete handle
  | .cancel execution_id => .cancel execution_id
  | .drainCompleted => .drain

def has (execution_id : BitVec 64) (handle : ExecutionHandle) : Bool :=
  handle.execution_id = execution_id

theorem step_eq (queue : ExecutionQueue) (call : ExecutionQueueCall) :
    step queue call = some (WorkQueue.call has ExecutionHandle.cancelled queue (work call)) := by
  cases call with
  | tryEnqueue execution_id request =>
    simp only [step, work, WorkQueue.call, tryEnqueue]
    cases WorkQueue.tryEnqueue queue { execution_id, request } <;> rfl
  | tryDequeue =>
    simp only [step, work, WorkQueue.call, tryDequeue]
    cases WorkQueue.tryDequeue queue <;> rfl
  | _ => rfl

theorem bounded_iff {max_pending : Nat} (hm : 0 < max_pending) {queue : ExecutionQueue}
    (hmax : queue.max_pending = max_pending) :
    Bounded max_pending queue ↔ queue.pending.length ≤ max_pending := by
  refine ⟨And.left, fun hle => ⟨hle, fun execution_id request => ?_⟩⟩
  have hnone := WorkQueue.tryEnqueue_eq_none_iff (hmax ▸ hm) { execution_id, request }
  unfold tryEnqueue pendingCount
  cases hq : WorkQueue.tryEnqueue queue { execution_id, request } with
  | none => exact ⟨iff_of_true rfl (Nat.le_antisymm hle (hmax ▸ hnone.1 hq)), fun _ => rfl⟩
  | some next =>
    refine ⟨iff_of_false (by simp) fun heq => ?_, nofun⟩
    rw [hnone.2 (by omega)] at hq
    cases hq

theorem hasRoom_iff {max_pending : Nat} {queue : ExecutionQueue} {call : ExecutionQueueCall} :
    HasRoom max_pending queue call ↔
      ∀ handle, work call = .enqueue handle → queue.pending.length < max_pending := by
  cases call <;> simp [HasRoom, work, pendingCount]

end ExecutionQueue

namespace SubmissionQueue

variable (hash : String → BitVec 64)

def work : SubmissionQueueCall → QueueCall SubmissionJob (BitVec 64)
  | .enqueue count request => .enqueue (newJob hash count request)
  | .tryEnqueue count request => .tryEnqueue (newJob hash count request)
  | .tryDequeue => .tryDequeue
  | .complete job => .complete job
  | .cancel submission_id => .cancel submission_id
  | .drainCompleted => .drain

def has (submission_id : BitVec 64) (job : SubmissionJob) : Bool :=
  job.submission_id = submission_id

theorem step_eq (queue : SubmissionQueue) (call : SubmissionQueueCall) :
    step hash queue call =
      some (WorkQueue.call has SubmissionJob.cancelled queue (work hash call)) := by
  cases call with
  | tryEnqueue count request =>
    simp only [step, work, WorkQueue.call, tryEnqueue]
    cases WorkQueue.tryEnqueue queue (newJob hash count request) <;> rfl
  | tryDequeue =>
    simp only [step, work, WorkQueue.call, tryDequeue]
    cases WorkQueue.tryDequeue queue <;> rfl
  | _ => rfl

theorem bounded_iff {max_pending : Nat} (hm : 0 < max_pending) {queue : SubmissionQueue}
    (hmax : queue.max_pending = max_pending) :
    Bounded hash max_pending queue ↔ queue.pending.length ≤ max_pending := by
  refine ⟨And.left, fun hle => ⟨hle, fun count request => ?_⟩⟩
  have hnone := WorkQueue.tryEnqueue_eq_none_iff (hmax ▸ hm) (newJob hash count request)
  unfold tryEnqueue pendingCount
  cases hq : WorkQueue.tryEnqueue queue (newJob hash count request) with
  | none => exact ⟨iff_of_true rfl (Nat.le_antisymm hle (hmax ▸ hnone.1 hq)), fun _ => rfl⟩
  | some next =>
    refine ⟨iff_of_false (by simp) fun heq => ?_, nofun⟩
    rw [hnone.2 (by omega)] at hq
    cases hq

theorem hasRoom_iff {max_pending : Nat} {queue : SubmissionQueue} {call : SubmissionQueueCall} :
    HasRoom max_pending queue call ↔
      ∀ job, work hash call = .enqueue job → queue.pending.length < max_pending := by
  cases call <;> simp [HasRoom, work, pendingCount]

end SubmissionQueue

/-! ## The bound -/

/-- In every history of a queue with a bound, the bound holds and refusals go by
it at every step iff `enqueue` is never called while `max_pending` jobs wait. -/
theorem bounded_admission_iff {max_pending : Nat} (hm : 0 < max_pending) :
    (∀ calls : List ExecutionQueueCall,
      Machine.Always ExecutionQueue.step (ExecutionQueue.Bounded max_pending) { max_pending }
          calls ↔
        Machine.Along ExecutionQueue.step (ExecutionQueue.HasRoom max_pending) { max_pending }
          calls) ∧
      ∀ (hash : String → BitVec 64) (calls : List SubmissionQueueCall),
        Machine.Always (SubmissionQueue.step hash) (SubmissionQueue.Bounded hash max_pending)
            { max_pending } calls ↔
          Machine.Along (SubmissionQueue.step hash) (SubmissionQueue.HasRoom max_pending)
            { max_pending } calls := by
  constructor
  · intro calls
    simp only [funext fun queue => funext fun call =>
      propext (@ExecutionQueue.hasRoom_iff max_pending queue call)]
    have hq : ({ max_pending } : ExecutionQueue).pending.length ≤ max_pending :=
      Nat.zero_le max_pending
    exact WorkQueue.always_bounded_iff ExecutionQueue.step_eq hm
      (fun _ => ExecutionQueue.bounded_iff hm) rfl hq calls
  · intro hash calls
    simp only [funext fun queue => funext fun call =>
      propext (@SubmissionQueue.hasRoom_iff hash max_pending queue call)]
    have hq : ({ max_pending } : SubmissionQueue).pending.length ≤ max_pending :=
      Nat.zero_le max_pending
    exact WorkQueue.always_bounded_iff (SubmissionQueue.step_eq hash) hm
      (fun _ => SubmissionQueue.bounded_iff hash hm) rfl hq calls

/-- A second `tryEnqueue` on a queue for one handle is refused. -/
theorem bounded_admission_iff_one :
    let request : ExecutionRequest := ⟨"a.out", [], [], { limit := ⟨1, 1000, 0⟩ }⟩
    Machine.Always ExecutionQueue.step (ExecutionQueue.Bounded 1) { max_pending := 1 }
      [.tryEnqueue 1 request, .tryEnqueue 2 request] := by
  intro request
  refine ((bounded_admission_iff Nat.one_pos).1 _).2 (Machine.along_of_forall ?_)
  intro call hcall queue execution_id request' hc
  subst hc
  simp at hcall

/-- `enqueue` twice on a queue for one handle. -/
theorem admission_not_bounded :
    ¬ ∀ max_pending : Nat, 0 < max_pending →
      (∀ calls : List ExecutionQueueCall,
        Machine.Always ExecutionQueue.step (ExecutionQueue.Bounded max_pending) { max_pending }
          calls) ∧
      ∀ (hash : String → BitVec 64) (calls : List SubmissionQueueCall),
        Machine.Always (SubmissionQueue.step hash) (SubmissionQueue.Bounded hash max_pending)
          { max_pending } calls := by
  intro h
  let request : ExecutionRequest := ⟨"a.out", [], [], { limit := ⟨1, 1000, 0⟩ }⟩
  obtain ⟨-, hone⟩ := (h 1 Nat.one_pos).1 [.enqueue 1 request, .enqueue 2 request]
  obtain ⟨-, htwo⟩ := hone _ rfl
  have hle := (htwo _ rfl).1
  exact absurd hle (by decide)

end OnlineJudge
