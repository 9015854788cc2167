import OnlineJudge.Lib.WorkQueue

/-!
# A pool that drains a queue

The workers of a pool are called one after the other, in batches, until a batch
finds nothing to do. The pool is alone with the queue. What the work yields may
differ from call to call, so it is given by the number of the call.

* `WorkQueue.drainOnce`, `WorkQueue.drainAll`: a batch, and all of them;
* `WorkQueue.length_drainOnce`: a batch takes as many jobs as it counts, which is
  why the batches come to an end;
* `WorkQueue.drainAll_of_returns`: what all of them do to the backlog.
-/

/-- How a call on a pool ended, after so many calls of its workers. -/
structure Drain (J E : Type) where
  outcome : Except E Nat
  calls : Nat
  queue : WorkQueue J

namespace WorkQueue

variable {J V K R E : Type} (kind : JobKind J V K R) (work : Nat → J → Except E R)

/-- The rest of a batch, for the workers not yet called. -/
def drainOnce : (workers processed calls : Nat) → WorkQueue J → Drain J E
  | 0, processed, calls, q => ⟨.ok processed, calls, q⟩
  | workers + 1, processed, calls, q =>
    match q.serve kind (work calls) with
    | (.error e, q) => ⟨.error e, calls + 1, q⟩
    | (.ok worked, q) => drainOnce workers (processed + worked.toNat) (calls + 1) q

variable {kind work} {q q' : WorkQueue J}

theorem length_serve {w : J → Except E R} {worked : Bool}
    (h : q.serve kind w = (.ok worked, q')) :
    q'.pending.length + worked.toNat = q.pending.length := by
  unfold serve tryDequeue at h
  cases hp : q.pending with
  | nil =>
    simp only [hp] at h
    cases h
    simp [hp]
  | cons j rest =>
    simp only [hp] at h
    split at h <;> cases h
    rfl

theorem length_drainOnce {workers processed calls n : Nat}
    (h : (drainOnce kind work workers processed calls q).outcome = .ok n) :
    (drainOnce kind work workers processed calls q).queue.pending.length + n =
      q.pending.length + processed := by
  induction workers generalizing processed calls q with
  | zero =>
    cases h
    rfl
  | succ workers ih =>
    simp only [drainOnce] at h ⊢
    split at h
    · cases h
    · rename_i worked queue hs
      have := length_serve hs
      have := ih h
      omega

variable (kind work) in
/-- The batches, until one is empty. -/
def drainAll (workers processed calls : Nat) (q : WorkQueue J) : Drain J E :=
  match h : drainOnce kind work workers 0 calls q with
  | ⟨.error e, calls, queue⟩ => ⟨.error e, calls, queue⟩
  | ⟨.ok 0, calls, queue⟩ => ⟨.ok processed, calls, queue⟩
  | ⟨.ok (n + 1), calls, queue⟩ => drainAll workers (processed + (n + 1)) calls queue
termination_by q.pending.length
decreasing_by
  have hlen := length_drainOnce (congrArg Drain.outcome h)
  simp only [h] at hlen
  omega

/-! ## When every call returns -/

variable (kind work) in
/-- What becomes of a job that some call worked on. -/
def Publishes (j done : J) : Prop :=
  ∃ i r, work i (kind.start j) = .ok r ∧ done = kind.finish (kind.start j) r

variable (kind work) in
/-- A batch takes the first jobs, one for each worker, and publishes them in
order. -/
theorem drainOnce_of_returns (h : ∀ j ∈ q.pending, ∀ i, ∃ r, work i (kind.start j) = .ok r)
    (workers processed calls : Nat) :
    ∃ published, List.Forall₂ (Publishes kind work) (q.pending.take workers) published ∧
      drainOnce kind work workers processed calls q =
        ⟨.ok (processed + min workers q.pending.length), calls + workers,
          { q with
            pending := q.pending.drop workers
            completed := q.completed ++ published }⟩ := by
  induction workers generalizing processed calls q with
  | zero => exact ⟨[], .nil, by simp [drainOnce]⟩
  | succ workers ih =>
    cases hp : q.pending with
    | nil =>
      have hq : q.serve kind (work calls) = (.ok false, q) := by simp [serve, tryDequeue, hp]
      obtain ⟨published, hpub, heq⟩ := ih h processed (calls + 1)
      rw [hp, List.take_nil] at hpub
      refine ⟨published, hpub, ?_⟩
      simp only [drainOnce, hq, Bool.toNat_false, Nat.add_zero, heq, hp, List.drop_nil,
        List.length_nil, Nat.min_zero]
      congr 1
      omega
    | cons j rest =>
      rw [hp] at h
      obtain ⟨r, hr⟩ := h j List.mem_cons_self calls
      have hq : q.tryDequeue = some (j, { q with pending := rest }) := by simp [tryDequeue, hp]
      let next := { q with pending := rest }.complete (kind.finish (kind.start j) r)
      obtain ⟨published, hpub, heq⟩ := @ih next
        (fun i hi => h i (List.mem_cons_of_mem j hi)) (processed + 1) (calls + 1)
      have hprocessed : processed + 1 + min workers rest.length =
          processed + min (workers + 1) (rest.length + 1) := by omega
      have hcalls : calls + 1 + workers = calls + (workers + 1) := by omega
      refine ⟨kind.finish (kind.start j) r :: published, .cons ⟨calls, r, hr, rfl⟩ hpub, ?_⟩
      simp only [drainOnce, serve_of_ok hq hr, Bool.toNat_true]
      rw [heq]
      simp only [next, complete, List.length_cons, List.drop_succ_cons, List.append_assoc,
        List.singleton_append, hprocessed, hcalls]

variable (kind work) in
/-- Everything that waits is published, in order. -/
theorem drainAll_of_returns {workers : Nat} (hworkers : 0 < workers)
    (h : ∀ j ∈ q.pending, ∀ i, ∃ r, work i (kind.start j) = .ok r) (processed calls : Nat) :
    ∃ published, List.Forall₂ (Publishes kind work) q.pending published ∧
      (drainAll kind work workers processed calls q).outcome =
        .ok (processed + q.pending.length) ∧
      (drainAll kind work workers processed calls q).queue =
        { q with pending := [], completed := q.completed ++ published } := by
  induction hn : q.pending.length using Nat.strongRecOn generalizing q processed calls with
  | ind n ih =>
    obtain ⟨first, hfirst, heq⟩ := drainOnce_of_returns kind work h workers 0 calls
    rw [Nat.zero_add, hn] at heq
    unfold drainAll
    rw [heq]
    cases hmin : min workers n with
    | zero =>
      -- the batch was empty, and so is the queue
      have hnil : q.pending = [] := List.length_eq_zero_iff.1 (by omega)
      rw [hnil, List.take_nil, List.forall₂_nil_left_iff] at hfirst
      have hn0 : n = 0 := by simpa [hnil] using hn.symm
      refine ⟨[], ?_, by simp [hn0], by simp [hnil, hfirst]⟩
      rw [hnil]
      exact .nil
    | succ m =>
      let next : WorkQueue J := { q with
        pending := q.pending.drop workers
        completed := q.completed ++ first }
      have hlen : next.pending.length = n - workers := by
        simp only [next, List.length_drop, hn]
      obtain ⟨others, hothers, hout, hqueue⟩ := @ih (n - workers) (by omega) next
        (fun j hj => h j (List.mem_of_mem_drop hj)) (processed + (m + 1)) (calls + workers) hlen
      refine ⟨first ++ others, ?_, ?_, ?_⟩
      · rw [← List.take_append_drop workers q.pending]
        exact List.rel_append hfirst hothers
      · refine hout.trans (congrArg Except.ok ?_)
        omega
      · refine hqueue.trans ?_
        simp only [next, List.append_assoc]

end WorkQueue
