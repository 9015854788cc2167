import OnlineJudge.Submission

/-!
# The submission queue

`SubmissionQueue` of `submission/submission_service.hpp`. The id of a job is the
hash of its path combined with a clock reading, and `cancel` takes the first job
with an id.
-/

namespace OnlineJudge

structure SubmissionRequest where
  solution_path : String
  testsuite : List TestCase
  config : ExecutionConfig
  deriving DecidableEq, Repr

/-- The default of `result` is the value-initialised one. -/
structure SubmissionJob where
  submission_id : BitVec 64 := 0
  request : SubmissionRequest
  state : ExecutionState := .created
  result : SubmissionResult := ⟨⟨0, [], ""⟩, .accepted, {}⟩
  deriving DecidableEq, Repr

namespace SubmissionJob

/-- `processNext` took the job. -/
def running (job : SubmissionJob) : SubmissionJob := { job with state := .running }

/-- `SubmissionService::evaluate` returned. -/
def finished (job : SubmissionJob) (result : SubmissionResult) : SubmissionJob :=
  { job with result, state := .finished }

def cancelled (job : SubmissionJob) : SubmissionJob := { job with state := .cancelled }

end SubmissionJob

abbrev SubmissionQueue := WorkQueue SubmissionJob

namespace SubmissionQueue

/-- The id of a job for this path, with the hash function of the library and the
count of the steady clock. -/
def submissionId (hash : String → BitVec 64) (solution_path : String) (count : Int) : BitVec 64 :=
  hash solution_path ^^^ BitVec.ofInt 64 count

section
variable (hash : String → BitVec 64) (count : Int) (queue : SubmissionQueue)
  (request : SubmissionRequest)

def newJob : SubmissionJob :=
  { submission_id := submissionId hash request.solution_path count, request }

def enqueue : SubmissionJob × SubmissionQueue :=
  (newJob hash count request, WorkQueue.enqueue queue (newJob hash count request))

def tryEnqueue : Option SubmissionJob × SubmissionQueue :=
  match WorkQueue.tryEnqueue queue (newJob hash count request) with
  | none => (none, queue)
  | some queue => (some (newJob hash count request), queue)

def tryDequeue : Option (SubmissionJob × SubmissionQueue) := WorkQueue.tryDequeue queue

def complete (job : SubmissionJob) : SubmissionQueue := WorkQueue.complete queue job

def cancel (submission_id : BitVec 64) : Bool × SubmissionQueue :=
  WorkQueue.cancel queue (fun job => job.submission_id = submission_id) SubmissionJob.cancelled

def pendingCount : Nat := queue.pending.length

def drainCompleted : List SubmissionJob × SubmissionQueue := WorkQueue.drain queue

end

end SubmissionQueue

/-! ## Histories of the queue -/

inductive SubmissionCall
  /-- The clock does not go back. -/
  | tick (d : Nat)
  | enqueue (request : SubmissionRequest)
  | tryEnqueue (request : SubmissionRequest)
  | tryDequeue
  | cancel (submission_id : BitVec 64)

structure SubmissionClerk where
  now : Int
  queue : SubmissionQueue

def SubmissionClerk.step (hash : String → BitVec 64) (clerk : SubmissionClerk) :
    SubmissionCall → Option SubmissionClerk
  | .tick d => some { clerk with now := clerk.now + d }
  | .enqueue request =>
    some { clerk with queue := (SubmissionQueue.enqueue hash clerk.now clerk.queue request).2 }
  | .tryEnqueue request =>
    some { clerk with queue := (SubmissionQueue.tryEnqueue hash clerk.now clerk.queue request).2 }
  | .tryDequeue =>
    match SubmissionQueue.tryDequeue clerk.queue with
    | none => some clerk
    | some (_, queue) => some { clerk with queue }
  | .cancel submission_id =>
    some { clerk with queue := (SubmissionQueue.cancel clerk.queue submission_id).2 }

/-- A job with what its id hides: the how-manieth submission it is, and the clock
reading of it. -/
structure SubmissionEntry where
  serial : Nat
  count : Int
  job : SubmissionJob
  deriving DecidableEq

def SubmissionEntry.cancelled (entry : SubmissionEntry) : SubmissionEntry :=
  { entry with job := entry.job.cancelled }

/-- The same queue with entries for jobs, and all entries so far. -/
structure SubmissionHistory where
  now : Int
  queue : WorkQueue SubmissionEntry
  submitted : List SubmissionEntry := []

namespace SubmissionHistory

def clerk (s : SubmissionHistory) : SubmissionClerk := ⟨s.now, s.queue.map SubmissionEntry.job⟩

/-- The entry of a submission made now. -/
def entry (hash : String → BitVec 64) (s : SubmissionHistory) (request : SubmissionRequest) :
    SubmissionEntry :=
  ⟨s.submitted.length, s.now, SubmissionQueue.newJob hash s.now request⟩

def cancel (s : SubmissionHistory) (submission_id : BitVec 64) : Bool × WorkQueue SubmissionEntry :=
  s.queue.cancel (fun entry => entry.job.submission_id = submission_id) SubmissionEntry.cancelled

def submit (hash : String → BitVec 64) (s : SubmissionHistory) (request : SubmissionRequest) :
    SubmissionHistory :=
  { s with
    queue := s.queue.enqueue (s.entry hash request)
    submitted := s.submitted ++ [s.entry hash request] }

def step (hash : String → BitVec 64) (s : SubmissionHistory) :
    SubmissionCall → Option SubmissionHistory
  | .tick d => some { s with now := s.now + d }
  | .enqueue request => some (s.submit hash request)
  | .tryEnqueue request => some (if s.queue.full then s else s.submit hash request)
  | .tryDequeue =>
    match s.queue.tryDequeue with
    | none => some s
    | some (_, queue) => some { s with queue }
  | .cancel submission_id => some { s with queue := (s.cancel submission_id).2 }

variable {hash : String → BitVec 64} {s t : SubmissionHistory} {call : SubmissionCall}
  {calls : List SubmissionCall}

theorem clerk_cancel (submission_id : BitVec 64) :
    SubmissionQueue.cancel s.clerk.queue submission_id =
      ((s.cancel submission_id).1, (s.cancel submission_id).2.map SubmissionEntry.job) :=
  WorkQueue.map_cancel s.queue SubmissionEntry.job (fun _ => rfl) (fun _ => rfl)

/-- Nothing looks at what the entries add. -/
theorem clerk_step (h : step hash s call = some t) :
    SubmissionClerk.step hash s.clerk call = some t.clerk := by
  have hsubmit (request : SubmissionRequest) :
      (SubmissionQueue.enqueue hash s.clerk.now s.clerk.queue request).2 =
        (s.submit hash request).clerk.queue :=
    (WorkQueue.map_enqueue s.queue SubmissionEntry.job (s.entry hash request)).symm
  cases call with
  | tick d => cases h; rfl
  | enqueue request =>
    cases h
    rw [SubmissionClerk.step, hsubmit]
    rfl
  | tryEnqueue request =>
    simp only [step, Option.some.injEq] at h
    rw [SubmissionClerk.step, SubmissionQueue.tryEnqueue, WorkQueue.tryEnqueue]
    have hfull : WorkQueue.full s.clerk.queue = s.queue.full := s.queue.full_map _
    rw [hfull]
    cases hf : s.queue.full with
    | true =>
      rw [hf] at h
      cases h
      rfl
    | false =>
      rw [hf] at h
      cases h
      exact congrArg (fun queue => some { s.clerk with queue }) (hsubmit request)
  | tryDequeue =>
    simp only [step] at h
    have hmap := s.queue.map_tryDequeue SubmissionEntry.job
    rw [SubmissionClerk.step, SubmissionQueue.tryDequeue, clerk, hmap]
    split at h
    · rename_i hq
      cases h
      rw [hq]
      rfl
    · rename_i hq
      cases h
      rw [hq]
      rfl
  | cancel submission_id =>
    cases h
    rw [SubmissionClerk.step, clerk_cancel]
    rfl

theorem clerk_run (h : Machine.run (step hash) s calls = some t) :
    Machine.run (SubmissionClerk.step hash) s.clerk calls = some t.clerk := by
  induction calls generalizing s with
  | nil => cases h; rfl
  | cons call calls ih =>
    obtain ⟨u, hu, h⟩ := Machine.run_cons.1 h
    exact Machine.run_cons.2 ⟨u.clerk, clerk_step hu, ih h⟩

/-- Submissions are numbered, their ids are what the queue made of path and
clock, and those that wait do so in the order of submission. -/
structure Filed (hash : String → BitVec 64) (s : SubmissionHistory) : Prop where
  numbered : s.submitted.map SubmissionEntry.serial = List.range s.submitted.length
  identified : ∀ entry ∈ s.submitted, entry.job.submission_id =
    SubmissionQueue.submissionId hash entry.job.request.solution_path entry.count
  waiting : s.queue.pending.Sublist s.submitted

theorem Filed.submit (h : Filed hash s) (request : SubmissionRequest) :
    Filed hash (s.submit hash request) := by
  refine ⟨?_, fun e he => ?_, h.waiting.append (List.Sublist.refl _)⟩
  · simp [SubmissionHistory.submit, entry, h.numbered, List.range_succ]
  · rcases List.mem_append.1 he with he | he
    · exact h.identified e he
    · rw [List.mem_singleton.1 he]
      rfl

theorem Filed.step (h : Filed hash s) (ht : SubmissionHistory.step hash s call = some t) :
    Filed hash t := by
  cases call with
  | tick d => cases ht; exact ⟨h.numbered, h.identified, h.waiting⟩
  | enqueue request => cases ht; exact h.submit request
  | tryEnqueue request =>
    cases ht
    split
    · exact h
    · exact h.submit request
  | tryDequeue =>
    simp only [SubmissionHistory.step] at ht
    split at ht <;> cases ht
    · exact h
    · rename_i hq
      unfold WorkQueue.tryDequeue at hq
      split at hq <;> cases hq
      rename_i hp
      exact ⟨h.numbered, h.identified, (hp ▸ List.sublist_cons_self _ _).trans h.waiting⟩
  | cancel submission_id =>
    cases ht
    refine ⟨h.numbered, h.identified, ?_⟩
    rw [cancel, WorkQueue.cancel]
    split
    · exact h.waiting
    · exact List.eraseP_sublist.trans h.waiting

/-- A queue with this bound, created at this time. -/
def start (now : Int) (max_pending : Nat) : SubmissionHistory := { now, queue := { max_pending } }

theorem Filed.reach {now : Int} {max_pending : Nat}
    (h : Machine.run (SubmissionHistory.step hash) (start now max_pending) calls = some s) :
    Filed hash s :=
  Machine.run_keeps (I := Filed hash) (fun _ _ _ hs ht => hs.step ht)
    ⟨rfl, fun _ he => absurd he List.not_mem_nil, List.nil_sublist _⟩ h

theorem Filed.eq_of_serial (h : Filed hash s) {a b : SubmissionEntry} (ha : a ∈ s.submitted)
    (hb : b ∈ s.submitted) (hserial : a.serial = b.serial) : a = b :=
  List.inj_on_of_nodup_map (h.numbered ▸ List.nodup_range) ha hb hserial

theorem Filed.nodup (h : Filed hash s) : s.queue.pending.Nodup :=
  h.waiting.nodup (List.Nodup.of_map _ (h.numbered ▸ List.nodup_range))

/-! ### Cancelling a job by its id -/

/-- `cancel` with the id of the job: if the job waits it is the one that is taken
out and published, and otherwise nothing happens. -/
def CancelsOwn (s : SubmissionHistory) (entry : SubmissionEntry) : Prop :=
  (∀ before after, s.queue.pending = before ++ entry :: after →
    s.cancel entry.job.submission_id = (true, { s.queue with
      pending := before ++ after
      completed := s.queue.completed ++ [entry.cancelled] })) ∧
  (entry ∉ s.queue.pending → s.cancel entry.job.submission_id = (false, s.queue))

/-- The hashes of the two paths differ as the clock readings do. -/
def SameId (hash : String → BitVec 64) (a b : SubmissionEntry) : Prop :=
  hash a.job.request.solution_path ^^^ BitVec.ofInt 64 a.count =
    hash b.job.request.solution_path ^^^ BitVec.ofInt 64 b.count

/-- No job that `cancel` meets before this one, or at all when it does not wait,
has the same id. -/
def Unshadowed (hash : String → BitVec 64) (s : SubmissionHistory) (entry : SubmissionEntry) :
    Prop :=
  (∀ before after, s.queue.pending = before ++ entry :: after →
    ∀ earlier ∈ before, ¬ SameId hash earlier entry) ∧
  (entry ∉ s.queue.pending → ∀ other ∈ s.queue.pending, ¬ SameId hash other entry)

theorem Filed.id_eq_iff (h : Filed hash s) {a b : SubmissionEntry} (ha : a ∈ s.submitted)
    (hb : b ∈ s.submitted) :
    a.job.submission_id = b.job.submission_id ↔ SameId hash a b := by
  rw [h.identified a ha, h.identified b hb]
  rfl

theorem Filed.cancel_waiting_iff (h : Filed hash s) {entry : SubmissionEntry}
    (hentry : entry ∈ s.submitted) {before after : List SubmissionEntry}
    (hq : s.queue.pending = before ++ entry :: after) :
    s.cancel entry.job.submission_id = (true, { s.queue with
        pending := before ++ after
        completed := s.queue.completed ++ [entry.cancelled] }) ↔
      ∀ earlier ∈ before, ¬ SameId hash earlier entry := by
  have hmem {e : SubmissionEntry} (he : e ∈ s.queue.pending) : e ∈ s.submitted :=
    h.waiting.subset he
  constructor
  · intro hc earlier hearlier hsame
    obtain ⟨before', first, after', hq', -, hbefore', hcompleted⟩ :=
      WorkQueue.exists_first_of_cancel hc
    -- the published entry has the number of the cancelled one
    have hserial := congrArg SubmissionEntry.serial
      (List.singleton_inj.1 (List.append_cancel_left hcompleted))
    have hfirst : entry = first :=
      h.eq_of_serial hentry (hmem (by rw [hq']; simp)) hserial
    subst hfirst
    have hnodup := hq ▸ h.nodup
    have hnot : entry ∉ before ∧ entry ∉ after := by
      simpa using (List.nodup_cons.1 (List.nodup_middle.1 hnodup)).1
    obtain ⟨rfl, -, -⟩ := (List.append_cons_inj_of_notMem hnot.1 hnot.2).1 (hq.symm.trans hq')
    have hid := (h.id_eq_iff (hmem (by rw [hq]; simp [hearlier])) hentry).2 hsame
    simpa [hid] using hbefore' earlier hearlier
  · intro hnone
    refine WorkQueue.cancel_of_first hq (by simp) fun earlier he => ?_
    have hearlier : earlier ∈ s.submitted := hmem (hq ▸ List.mem_append_left _ he)
    simpa [h.id_eq_iff hearlier hentry] using hnone earlier he

theorem Filed.cancel_gone_iff (h : Filed hash s) {entry : SubmissionEntry}
    (hentry : entry ∈ s.submitted) :
    s.cancel entry.job.submission_id = (false, s.queue) ↔
      ∀ other ∈ s.queue.pending, ¬ SameId hash other entry := by
  have hid {e : SubmissionEntry} (he : e ∈ s.queue.pending) :
      e.job.submission_id = entry.job.submission_id ↔ SameId hash e entry :=
    h.id_eq_iff (h.waiting.subset he) hentry
  constructor
  · intro hc other hother hsame
    have hnone := (s.queue.cancel_iff (fun e => e.job.submission_id = entry.job.submission_id)
      SubmissionEntry.cancelled).2 ⟨other, hother, by simp [(hid hother).2 hsame]⟩
    rw [cancel] at hc
    rw [hc] at hnone
    cases hnone
  · exact fun hnone => WorkQueue.cancel_of_none fun e he => by simpa [hid he] using hnone e he

end SubmissionHistory

/-- In every history, and for every job ever submitted, cancelling by the id of
the job cancels this job iff no job that `cancel` meets before it has the same
combination of hash and clock. -/
theorem submission_cancel_iff {hash : String → BitVec 64} {now : Int} {max_pending : Nat}
    {calls : List SubmissionCall} {s : SubmissionHistory}
    (h : Machine.run (SubmissionHistory.step hash) (.start now max_pending) calls = some s) :
    Machine.run (SubmissionClerk.step hash) ⟨now, { max_pending }⟩ calls = some s.clerk ∧
      (∀ submission_id, SubmissionQueue.cancel s.clerk.queue submission_id =
        ((s.cancel submission_id).1, (s.cancel submission_id).2.map SubmissionEntry.job)) ∧
      ∀ entry ∈ s.submitted, s.CancelsOwn entry ↔ s.Unshadowed hash entry := by
  have hfiled := SubmissionHistory.Filed.reach h
  refine ⟨SubmissionHistory.clerk_run h, fun _ => SubmissionHistory.clerk_cancel _,
    fun entry hentry => and_congr ?_ ?_⟩
  · exact forall_congr' fun before => forall_congr' fun after => forall_congr' fun hq =>
      hfiled.cancel_waiting_iff hentry hq
  · exact forall_congr' fun _ => hfiled.cancel_gone_iff hentry

theorem submission_cancel_iff_alone :
    ∃ s, Machine.run (SubmissionHistory.step fun _ => 7) (.start 0 0)
        [.enqueue ⟨"main.cpp", [], { limit := ⟨1, 1000, 0⟩ }⟩] = some s ∧
      ∀ entry ∈ s.submitted, s.CancelsOwn entry := by
  refine ⟨_, rfl, fun entry hentry => ?_⟩
  refine ((@submission_cancel_iff (fun _ => 7) 0 0
    [.enqueue ⟨"main.cpp", [], { limit := ⟨1, 1000, 0⟩ }⟩] _ rfl).2.2 entry hentry).2
    ⟨fun before after hq earlier hearlier => ?_, fun hnot => absurd hentry hnot⟩
  -- nothing stands before the only job
  have hlength := congrArg List.length hq
  have hbefore : before = [] := List.eq_nil_of_length_eq_zero (by
    simp only [SubmissionHistory.submit, SubmissionHistory.start, WorkQueue.enqueue,
      List.length_append, List.length_cons, List.length_nil] at hlength
    omega)
  subst hbefore
  cases hearlier

/-- Two submissions of one path within one tick: the second is cancelled, and
the first is gone. -/
theorem cancel_takes_another :
    ¬ ∀ (hash : String → BitVec 64) (now : Int) (max_pending : Nat) (calls : List SubmissionCall)
        (s : SubmissionHistory),
      Machine.run (SubmissionHistory.step hash) (.start now max_pending) calls = some s →
      ∀ entry ∈ s.submitted, s.CancelsOwn entry := by
  intro h
  let first : SubmissionRequest := ⟨"main.cpp", [], { limit := ⟨1, 1000, 0⟩ }⟩
  let second : SubmissionRequest := ⟨"main.cpp", [⟨[], []⟩], { limit := ⟨1, 1000, 0⟩ }⟩
  let s := ((SubmissionHistory.start 0 0).submit (fun _ => 7) first).submit (fun _ => 7) second
  have hcancel := (h (fun _ => 7) 0 0 [.enqueue first, .enqueue second] s rfl
    ⟨1, 0, SubmissionQueue.newJob (fun _ => 7) 0 second⟩ (by decide)).1
    [⟨0, 0, SubmissionQueue.newJob (fun _ => 7) 0 first⟩] [] rfl
  exact absurd (congrArg (fun answer => answer.2.pending.map SubmissionEntry.serial) hcancel)
    (by decide)

end OnlineJudge
