import OnlineJudge.Lib.WorkQueue

/-!
# Histories of a bounded queue

Every method of the queue is atomic, so whatever its threads do is a list of
calls. Of the two ways in, only one looks at the bound.

* `QueueCall`, `WorkQueue.call`: a call, and the queue it leaves;
* `WorkQueue.tryEnqueue_eq_none_iff`: what a refusal goes by;
* `WorkQueue.always_bounded_iff`: when the bound holds all along a history.
-/

/-- One call of one thread. -/
inductive QueueCall (J K : Type)
  | enqueue (j : J)
  | tryEnqueue (j : J)
  | tryDequeue
  | complete (j : J)
  | cancel (key : K)
  | drain

namespace WorkQueue

variable {J K : Type}

/-- The queue after a call; `cancel` looks for a job that has the key. -/
def call (has : K → J → Bool) (mark : J → J) (q : WorkQueue J) : QueueCall J K → WorkQueue J
  | .enqueue j => q.enqueue j
  | .tryEnqueue j => (q.tryEnqueue j).getD q
  | .tryDequeue => q.tryDequeue.elim q Prod.snd
  | .complete j => q.complete j
  | .cancel key => (q.cancel (has key) mark).2
  | .drain => q.drain.2

variable {q : WorkQueue J} {has : K → J → Bool} {mark : J → J}

theorem tryEnqueue_eq_none_iff (hm : 0 < q.max_pending) (j : J) :
    q.tryEnqueue j = none ↔ q.max_pending ≤ q.pending.length := by
  unfold tryEnqueue
  split
  · rename_i hf
    exact iff_of_true rfl (q.full_iff.1 hf).2
  · rename_i hf
    refine iff_of_false (by simp) fun hle => hf (q.full_iff.2 ⟨by omega, hle⟩)

theorem max_pending_call (c : QueueCall J K) : (q.call has mark c).max_pending = q.max_pending := by
  cases c with
  | tryEnqueue j =>
    simp only [call, tryEnqueue]
    split <;> rfl
  | tryDequeue =>
    simp only [call, tryDequeue]
    cases q.pending <;> rfl
  | cancel key =>
    simp only [call, cancel]
    split <;> rfl
  | _ => rfl

/-- Only `enqueue` makes more jobs wait than are let in. -/
theorem length_call_le (hm : 0 < q.max_pending) (hle : q.pending.length ≤ q.max_pending)
    {c : QueueCall J K} (hc : ∀ j, c ≠ .enqueue j) :
    (q.call has mark c).pending.length ≤ q.max_pending := by
  cases c with
  | enqueue j => exact absurd rfl (hc j)
  | tryEnqueue j =>
    cases hq : q.tryEnqueue j with
    | none => simpa [call, hq] using hle
    | some queue =>
      have hlt : ¬ q.max_pending ≤ q.pending.length := by
        rw [← tryEnqueue_eq_none_iff hm j, hq]
        simp
      have hqueue : queue = q.enqueue j := by
        unfold tryEnqueue at hq
        split at hq
        · cases hq
        · exact (Option.some.inj hq).symm
      simp only [call, hq, hqueue, Option.getD_some, enqueue, List.length_append,
        List.length_singleton]
      omega
  | tryDequeue =>
    simp only [call, tryDequeue]
    cases hp : q.pending with
    | nil => simp [hp]
    | cons j rest =>
      rw [hp, List.length_cons] at hle
      exact Nat.le_of_succ_le hle
  | cancel key =>
    simp only [call, cancel]
    split
    · exact hle
    · exact Nat.le_trans List.length_eraseP_le hle
  | complete | drain => exact hle

/-- For a queue whose operations are such calls: what amounts to the bound holds
in every state of a history iff `enqueue` is never called on a full queue. -/
theorem always_bounded_iff {C : Type} {step : WorkQueue J → C → Option (WorkQueue J)}
    {work : C → QueueCall J K} (hstep : ∀ q c, step q c = some (call has mark q (work c)))
    {m : Nat} (hm : 0 < m) {I : WorkQueue J → Prop}
    (hI : ∀ q, q.max_pending = m → (I q ↔ q.pending.length ≤ m)) (hmax : q.max_pending = m)
    (hq : q.pending.length ≤ m) (calls : List C) :
    Machine.Always step I q calls ↔
      Machine.Along step (fun q c => ∀ j, work c = .enqueue j → q.pending.length < m) q calls := by
  induction calls generalizing q with
  | nil => exact iff_of_true ((hI q hmax).2 hq) trivial
  | cons c calls ih =>
    have hmax' : (q.call has mark (work c)).max_pending = m := (max_pending_call _).trans hmax
    simp only [Machine.Always, Machine.Along, hstep, Option.some.injEq, forall_eq']
    constructor
    · rintro ⟨-, h⟩
      have hle := (hI _ hmax').1 h.head
      refine ⟨fun j hj => ?_, (ih hmax' hle).1 h⟩
      simp only [hj, call, enqueue, List.length_append, List.length_singleton] at hle
      omega
    · rintro ⟨hc, h⟩
      refine ⟨(hI q hmax).2 hq, (ih hmax' ?_).2 h⟩
      by_cases he : ∃ j, work c = .enqueue j
      · obtain ⟨j, hj⟩ := he
        have := hc j hj
        simp only [hj, call, enqueue, List.length_append, List.length_singleton]
        omega
      · subst hmax
        exact length_call_le hm hq fun j hj => he ⟨j, hj⟩

end WorkQueue
