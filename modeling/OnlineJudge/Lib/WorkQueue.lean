import OnlineJudge.Lib.Machine
import Mathlib.Data.List.Count
import Mathlib.Data.List.Nodup

/-!
# A work queue and its workers

Jobs wait in a queue, are taken by workers, published in a list when they are
done or cancelled, and handed out in batches. Every operation of the queue is
atomic; a worker takes a job in one step and finishes it in a later one.

* `WorkQueue`: the queue and the list of published jobs;
* `WorkShop`: a queue with the workers that hold a job and the batches handed
  out;
* `Accounted`: where every job is, kept by every step;
* `WorkFloor`: a shop whose workers may give up.
-/

structure WorkQueue (J : Type) where
  pending : List J := []
  completed : List J := []
  /-- At most so many jobs may wait; 0 is no bound. -/
  max_pending : Nat := 0

namespace WorkQueue

variable {J : Type} (q : WorkQueue J)

def enqueue (j : J) : WorkQueue J := { q with pending := q.pending ++ [j] }

def full : Bool := q.max_pending ≠ 0 && q.max_pending ≤ q.pending.length

/-- `none` when the queue is full. -/
def tryEnqueue (j : J) : Option (WorkQueue J) := if q.full then none else some (q.enqueue j)

def tryDequeue : Option (J × WorkQueue J) :=
  match q.pending with
  | [] => none
  | j :: rest => some (j, { q with pending := rest })

def complete (j : J) : WorkQueue J := { q with completed := q.completed ++ [j] }

/-- The first pending job that meets `p` is taken out of the queue, marked and
published. -/
def cancel (p : J → Bool) (mark : J → J) : Bool × WorkQueue J :=
  match q.pending.find? p with
  | none => (false, q)
  | some j =>
    (true, { q with pending := q.pending.eraseP p, completed := q.completed ++ [mark j] })

def drain : List J × WorkQueue J := (q.completed, { q with completed := [] })

theorem cancel_iff (p : J → Bool) (mark : J → J) :
    (q.cancel p mark).1 = true ↔ ∃ j ∈ q.pending, p j = true := by
  unfold cancel
  split
  · rename_i h
    simpa using List.find?_eq_none.1 h
  · rename_i j h
    exact ⟨fun _ => ⟨j, List.mem_of_find?_eq_some h, List.find?_some h⟩, fun _ => rfl⟩

theorem full_iff : q.full = true ↔ q.max_pending ≠ 0 ∧ q.max_pending ≤ q.pending.length := by
  simp [full]

section
variable {q} {p : J → Bool} {mark : J → J}

theorem cancel_of_first {before after : List J} {j : J} (hq : q.pending = before ++ j :: after)
    (hj : p j = true) (hbefore : ∀ i ∈ before, p i = false) :
    q.cancel p mark =
      (true, { q with pending := before ++ after, completed := q.completed ++ [mark j] }) := by
  have hfind : q.pending.find? p = some j := by
    rw [hq, List.find?_append, List.find?_eq_none.2 (fun i hi => by simp [hbefore i hi])]
    simp [hj]
  have herase : q.pending.eraseP p = before ++ after := by
    rw [hq, List.eraseP_append_right _ (fun i hi => by simp [hbefore i hi]),
      List.eraseP_cons_of_pos hj]
  rw [cancel, hfind, herase]

theorem cancel_of_none (h : ∀ i ∈ q.pending, p i = false) : q.cancel p mark = (false, q) := by
  rw [cancel, List.find?_eq_none.2 fun i hi => by simp [h i hi]]

/-- A cancelled job that is published is the first that meets `p`. -/
theorem exists_first_of_cancel {queue : WorkQueue J} (h : q.cancel p mark = (true, queue)) :
    ∃ before j after, q.pending = before ++ j :: after ∧ p j = true ∧
      (∀ i ∈ before, p i = false) ∧ queue.completed = q.completed ++ [mark j] := by
  unfold cancel at h
  split at h
  · cases h
  · rename_i j hf
    cases h
    obtain ⟨hj, before, after, hq, hbefore⟩ := List.find?_eq_some_iff_append.1 hf
    exact ⟨before, j, after, hq, hj, fun i hi => by simpa using hbefore i hi, rfl⟩

end

/-! ### Jobs seen through a function -/

section
variable {I : Type} (f : J → I)

def map : WorkQueue I :=
  { pending := q.pending.map f, completed := q.completed.map f, max_pending := q.max_pending }

@[simp] theorem full_map : (q.map f).full = q.full := by
  rw [Bool.eq_iff_iff, full_iff, full_iff, map, List.length_map]

theorem map_enqueue (j : J) : (q.enqueue j).map f = (q.map f).enqueue (f j) := by
  simp [enqueue, map]

theorem map_tryDequeue :
    (q.map f).tryDequeue = q.tryDequeue.map fun ⟨j, queue⟩ => (f j, queue.map f) := by
  unfold tryDequeue
  cases hq : q.pending <;> simp [map, hq]

theorem map_cancel {p : J → Bool} {p' : I → Bool} {mark : J → J} {mark' : I → I}
    (hp : ∀ j, p' (f j) = p j) (hmark : ∀ j, mark' (f j) = f (mark j)) :
    (q.map f).cancel p' mark' = ((q.cancel p mark).1, (q.cancel p mark).2.map f) := by
  have hcomp : p' ∘ f = p := funext hp
  unfold cancel
  rw [map, List.find?_map, hcomp]
  cases hfind : q.pending.find? p with
  | none => rfl
  | some j => simp [map, hmark, List.eraseP_map, hcomp]

end

end WorkQueue

/-- What the workers do to a job: it is marked when it is started, finished or
cancelled, and its ticket, with the key in it, never changes. -/
structure JobKind (J V K R : Type) where
  ticket : J → V
  key : V → K
  start : J → J
  finish : J → R → J
  cancel : J → J
  ticket_start : ∀ j, ticket (start j) = ticket j
  ticket_finish : ∀ j r, ticket (finish j r) = ticket j
  ticket_cancel : ∀ j, ticket (cancel j) = ticket j

/-- A worker alone with the queue: the work on the job ends with a result or with
an exception, which leaves the worker. -/
def WorkQueue.serve {J V K R E : Type} (kind : JobKind J V K R) (work : J → Except E R)
    (q : WorkQueue J) : Except E Bool × WorkQueue J :=
  match q.tryDequeue with
  | none => (.ok false, q)
  | some (j, rest) =>
    match work (kind.start j) with
    | .error e => (.error e, rest)
    | .ok r => (.ok true, rest.complete (kind.finish (kind.start j) r))

section
variable {J V K R E : Type} {kind : JobKind J V K R} {work : J → Except E R} {q rest : WorkQueue J}
  {j : J}

theorem WorkQueue.serve_of_ok {r : R} (hq : q.tryDequeue = some (j, rest))
    (hw : work (kind.start j) = .ok r) :
    q.serve kind work = (.ok true, rest.complete (kind.finish (kind.start j) r)) := by
  simp only [serve, hq, hw]

theorem WorkQueue.serve_of_error {e : E} (hq : q.tryDequeue = some (j, rest))
    (hw : work (kind.start j) = .error e) : q.serve kind work = (.error e, rest) := by
  simp only [serve, hq, hw]

/-- The jobs that wait or are published are the same ones afterwards iff the work
returned a result. -/
theorem WorkQueue.serve_keeps_iff (hq : q.tryDequeue = some (j, rest)) :
    (((q.serve kind work).2.pending ++ (q.serve kind work).2.completed).map kind.ticket).Perm
        ((q.pending ++ q.completed).map kind.ticket) ↔
      ∃ r, work (kind.start j) = .ok r := by
  obtain ⟨hp, hc⟩ : q.pending = j :: rest.pending ∧ rest.completed = q.completed := by
    unfold tryDequeue at hq
    split at hq <;> cases hq
    rename_i hp
    exact ⟨hp, rfl⟩
  cases hw : work (kind.start j) with
  | error e =>
    rw [serve_of_error hq hw]
    refine iff_of_false (fun hperm => ?_) (by simp)
    have := hperm.length_eq
    simp only [hp, hc, List.map_append, List.length_append, List.length_map, List.length_cons]
      at this
    omega
  | ok r =>
    rw [serve_of_ok hq hw]
    refine iff_of_true ?_ ⟨r, rfl⟩
    simp only [complete, hp, hc, List.map_append, List.map_cons, List.map_nil, kind.ticket_finish,
      kind.ticket_start, ← List.append_assoc, List.cons_append]
    exact List.perm_append_singleton _ _

variable (kind work) in
theorem WorkQueue.serve_outcomes (hq : q.tryDequeue = some (j, rest)) :
    ((((q.serve kind work).2.pending ++ (q.serve kind work).2.completed).map kind.ticket).Perm
        ((q.pending ++ q.completed).map kind.ticket) ↔ ∃ r, work (kind.start j) = .ok r) ∧
      (∀ r, work (kind.start j) = .ok r →
        q.serve kind work = (.ok true, rest.complete (kind.finish (kind.start j) r))) ∧
      ∀ e, work (kind.start j) = .error e → q.serve kind work = (.error e, rest) :=
  ⟨serve_keeps_iff hq, fun _ => serve_of_ok hq, fun _ => serve_of_error hq⟩

end

/-- `working` are the jobs that workers hold, `drained` the batches handed out.
What follows is history: the jobs submitted, those taken by a worker, in order,
and those cancelled. -/
structure WorkShop (J T : Type) where
  queue : WorkQueue J := {}
  working : List (T × J) := []
  drained : List (List J) := []
  submitted : List J := []
  taken : List J := []
  cancelled : List J := []

/-- One call of one thread; a worker makes two of them. -/
inductive WorkStep (J T K R : Type)
  | submit (j : J)
  | take (worker : T)
  | finish (worker : T) (result : R)
  | cancel (key : K)
  | drain

/-- The part of a list before and after the first element that meets `p`. -/
theorem split_of_find? {α : Type} {p : α → Bool} {l : List α} {a : α} (h : l.find? p = some a) :
    ∃ before after, l = before ++ a :: after ∧ l.eraseP p = before ++ after ∧
      p a = true ∧ ∀ b ∈ before, p b = false := by
  induction l with
  | nil => cases h
  | cons b l ih =>
    cases hb : p b with
    | true =>
      rw [List.find?_cons_of_pos hb] at h
      cases h
      exact ⟨[], l, rfl, List.eraseP_cons_of_pos hb, hb, nofun⟩
    | false =>
      rw [List.find?_cons_of_neg (by simp [hb])] at h
      obtain ⟨before, after, rfl, he, ha, hbefore⟩ := ih h
      refine ⟨b :: before, after, rfl, ?_, ha, fun c hc => ?_⟩
      · rw [List.eraseP_cons_of_neg (by simp [hb]), he, List.cons_append]
      · rcases List.mem_cons.1 hc with rfl | hc
        · exact hb
        · exact hbefore c hc

namespace WorkShop

variable {J V K R T : Type} (kind : JobKind J V K R)

def key (j : J) : K := kind.key (kind.ticket j)

/-- Every job that is done or cancelled, whether handed out or not. -/
def published (s : WorkShop J T) : List J := s.drained.flatten ++ s.queue.completed

/-- Every job, wherever it is. -/
def places (s : WorkShop J T) : List J := s.queue.pending ++ s.working.map Prod.snd ++ s.published

/-- The job submitted by a step. -/
def submission : WorkStep J T K R → Option J
  | .submit j => some j
  | _ => none

/-- The tickets in all places, place by place. -/
theorem tickets (s : WorkShop J T) :
    s.places.map kind.ticket =
      s.queue.pending.map kind.ticket ++ s.working.map (kind.ticket ∘ Prod.snd) ++
        (s.drained.flatten.map kind.ticket ++ s.queue.completed.map kind.ticket) := by
  simp [places, WorkShop.published]

section
variable {kind} {s t : WorkShop J T}

/-- What each operation does to the jobs in all places. -/
theorem places_submit {j : J} (hq : t.queue = s.queue.enqueue j) (hw : t.working = s.working)
    (hd : t.drained = s.drained) :
    (t.places.map kind.ticket).Perm (s.places.map kind.ticket ++ [kind.ticket j]) := by
  classical
  rw [List.perm_iff_count, tickets, tickets, hq, hw, hd]
  intro v
  simp only [WorkQueue.enqueue, List.map_append, List.map_cons, List.map_nil, List.count_append]
  omega

theorem places_take {worker : T} {j : J} (hq : s.queue.tryDequeue = some (j, t.queue))
    (hw : t.working = (worker, kind.start j) :: s.working) (hd : t.drained = s.drained) :
    (t.places.map kind.ticket).Perm (s.places.map kind.ticket) := by
  unfold WorkQueue.tryDequeue at hq
  split at hq <;> simp only [reduceCtorEq, Option.some.injEq, Prod.mk.injEq] at hq
  rename_i first rest hp
  obtain ⟨rfl, hq⟩ := hq
  rw [tickets, tickets, hp, hw, hd, ← hq]
  simp only [List.map_cons, Function.comp_apply, kind.ticket_start, List.cons_append,
    List.append_assoc]
  exact List.perm_middle

theorem places_finish {p : T × J → Bool} {held : T × J} {result : R}
    (hf : s.working.find? p = some held)
    (hq : t.queue = s.queue.complete (kind.finish held.2 result))
    (hw : t.working = s.working.eraseP p) (hd : t.drained = s.drained) :
    (t.places.map kind.ticket).Perm (s.places.map kind.ticket) := by
  obtain ⟨before, after, hs, he, -, -⟩ := split_of_find? hf
  classical
  rw [List.perm_iff_count, tickets, tickets, hq, hw, he, hs, hd]
  intro v
  simp only [WorkQueue.complete, List.map_append, List.map_cons, List.map_nil,
    Function.comp_apply, kind.ticket_finish, List.count_append, List.count_cons, List.count_nil]
  omega

/-- A job that its worker lets go. -/
theorem places_drop {p : T × J → Bool} {held : T × J} (hf : s.working.find? p = some held)
    (hq : t.queue = s.queue) (hw : t.working = s.working.eraseP p) (hd : t.drained = s.drained) :
    (t.places.map kind.ticket ++ [kind.ticket held.2]).Perm (s.places.map kind.ticket) := by
  obtain ⟨before, after, hs, he, -, -⟩ := split_of_find? hf
  classical
  rw [List.perm_iff_count, tickets, tickets, hq, hw, he, hs, hd]
  intro v
  simp only [List.map_append, List.map_cons, Function.comp_apply, List.count_append,
    List.count_cons, List.count_nil]
  omega

theorem places_cancel {p : J → Bool} (hq : t.queue = (s.queue.cancel p kind.cancel).2)
    (hw : t.working = s.working) (hd : t.drained = s.drained) :
    (t.places.map kind.ticket).Perm (s.places.map kind.ticket) := by
  unfold WorkQueue.cancel at hq
  cases hf : s.queue.pending.find? p with
  | none =>
    rw [hf] at hq
    rw [tickets, tickets, hq, hw, hd]
  | some j =>
    obtain ⟨before, after, hp, he, -, -⟩ := split_of_find? hf
    rw [hf] at hq
    classical
    rw [List.perm_iff_count, tickets, tickets, hq, hw, hd, he, hp]
    intro v
    simp only [List.map_append, List.map_cons, List.map_nil, kind.ticket_cancel,
      List.count_append, List.count_cons, List.count_nil]
    omega

theorem places_drain (hq : t.queue = s.queue.drain.2) (hw : t.working = s.working)
    (hd : t.drained = s.drained ++ [s.queue.drain.1]) :
    t.places.map kind.ticket = s.places.map kind.ticket := by
  rw [tickets, tickets, hq, hw, hd]
  simp [WorkQueue.drain]

end

variable [DecidableEq K]

/-- Where the jobs are, and in which order they were taken. -/
structure Accounted (s : WorkShop J T) : Prop where
  conserved : (s.places.map kind.ticket).Perm (s.submitted.map kind.ticket)
  ordered : (s.taken ++ s.queue.pending).map (key kind) =
    (s.submitted.map (key kind)).filter fun k => k ∉ s.cancelled.map (key kind)
  published : ∀ j ∈ s.cancelled, kind.cancel j ∈ s.published
  known : ∀ j ∈ s.cancelled, key kind j ∈ s.submitted.map (key kind)

variable {kind} {s t : WorkShop J T}

/-- Among distinct keys only one is filtered out. -/
theorem filter_ne_of_nodup {before after : List K} {k : K} (h : (before ++ k :: after).Nodup) :
    (before ++ k :: after).filter (fun k' => k' ≠ k) = before ++ after := by
  have hk : k ∉ before ∧ k ∉ after := by
    have := List.nodup_middle.1 h
    simpa using (List.nodup_cons.1 this).1
  have hkeep (l : List K) (hl : k ∉ l) : l.filter (fun k' => k' ≠ k) = l :=
    List.filter_eq_self.2 fun k' hk' => by
      have : k' ≠ k := fun he => hl (he ▸ hk')
      simpa using this
  rw [List.filter_append, List.filter_cons_of_neg (by simp), hkeep _ hk.1, hkeep _ hk.2]

/-- A step that leaves the history alone and publishes no less. -/
theorem Accounted.moved (h : Accounted kind s)
    (hplaces : (t.places.map kind.ticket).Perm (s.places.map kind.ticket))
    (hsubmitted : t.submitted = s.submitted) (hcancelled : t.cancelled = s.cancelled)
    (hqueue : (t.taken ++ t.queue.pending).map (key kind) =
      (s.taken ++ s.queue.pending).map (key kind))
    (hpublished : ∀ j ∈ s.published, j ∈ t.published) : Accounted kind t := by
  refine ⟨?_, ?_, ?_, ?_⟩
  · rw [hsubmitted]
    exact hplaces.trans h.conserved
  · rw [hsubmitted, hcancelled, hqueue]
    exact h.ordered
  · rw [hcancelled]
    exact fun j hj => hpublished _ (h.published j hj)
  · rw [hsubmitted, hcancelled]
    exact h.known

theorem Accounted.submit (h : Accounted kind s) {j : J}
    (hnew : key kind j ∉ s.submitted.map (key kind)) :
    Accounted kind { s with
      queue := s.queue.enqueue j, submitted := s.submitted ++ [j] } := by
  have hfresh : key kind j ∉ s.cancelled.map (key kind) := by
    intro hmem
    obtain ⟨c, hc, hk⟩ := List.mem_map.1 hmem
    exact hnew (hk ▸ h.known c hc)
  refine ⟨?_, ?_, h.published, fun c hc => ?_⟩
  · rw [List.map_append]
    exact .trans (places_submit (s := s) rfl rfl rfl) (h.conserved.append_right _)
  · have := h.ordered
    simp only [List.map_append, WorkQueue.enqueue, List.filter_append] at this ⊢
    rw [← List.append_assoc, this, List.map_singleton,
      List.filter_cons_of_pos (by simpa using hfresh), List.filter_nil]
  · rw [List.map_append]
    exact List.mem_append_left _ (h.known c hc)

theorem Accounted.take (h : Accounted kind s) {worker : T} {j : J} {queue : WorkQueue J}
    (hq : s.queue.tryDequeue = some (j, queue)) :
    Accounted kind { s with
      queue, working := (worker, kind.start j) :: s.working, taken := s.taken ++ [j] } := by
  have htaken := hq
  unfold WorkQueue.tryDequeue at hq
  split at hq <;> cases hq
  rename_i rest hp
  exact h.moved (places_take htaken rfl rfl) rfl rfl (by simp [hp]) fun _ => id

theorem Accounted.cancel (h : Accounted kind s) (hd : (s.submitted.map (key kind)).Nodup) (k : K) :
    Accounted kind { s with
      queue := (s.queue.cancel (fun j => key kind j = k) kind.cancel).2
      cancelled := s.cancelled ++ (s.queue.pending.find? fun j => key kind j = k).toList } := by
  unfold WorkQueue.cancel
  cases hf : s.queue.pending.find? (fun j => key kind j = k) with
  | none => simpa using h
  | some j =>
    obtain ⟨before, after, hp, he, hj, hbefore⟩ := split_of_find? hf
    rw [decide_eq_true_eq] at hj
    have hord := h.ordered
    have hmem : k ∈ s.submitted.map (key kind) := by
      have : k ∈ (s.taken ++ s.queue.pending).map (key kind) :=
        hj ▸ List.mem_map_of_mem (by simp [hp])
      rw [hord] at this
      exact (List.mem_filter.1 this).1
    refine ⟨?_, ?_, fun c hc => ?_, fun c hc => ?_⟩
    · have hq : (s.queue.cancel (fun j => key kind j = k) kind.cancel).2 =
          { s.queue with
            pending := s.queue.pending.eraseP fun j => key kind j = k
            completed := s.queue.completed ++ [kind.cancel j] } := by
        rw [WorkQueue.cancel, hf]
      exact .trans (places_cancel (s := s) hq.symm rfl rfl) h.conserved
    · have hnodup : ((s.taken ++ s.queue.pending).map (key kind)).Nodup := hord ▸ hd.filter _
      have hleft : (s.taken ++ (before ++ after)).map (key kind) =
          ((s.taken ++ s.queue.pending).map (key kind)).filter fun k' => k' ≠ k := by
        rw [hp] at hnodup ⊢
        simp only [List.map_append, List.map_cons, hj, ← List.append_assoc] at hnodup ⊢
        exact (filter_ne_of_nodup hnodup).symm
      simp only [he, Option.toList_some, hleft, hord, List.filter_filter]
      refine List.filter_congr fun k' _ => ?_
      simp [hj, and_comm]
    · have hpub : ∀ i ∈ s.published,
          i ∈ s.drained.flatten ++ (s.queue.completed ++ [kind.cancel j]) := by
        intro i hi
        rw [← List.append_assoc]
        exact List.mem_append_left _ hi
      rcases List.mem_append.1 hc with hc | hc
      · exact hpub _ (h.published c hc)
      · rw [Option.toList_some, List.mem_singleton] at hc
        subst hc
        simp [WorkShop.published]
    · rcases List.mem_append.1 hc with hc | hc
      · exact h.known c hc
      · rw [Option.toList_some, List.mem_singleton] at hc
        rw [hc, hj]
        exact hmem

theorem accounted_init : Accounted kind ({} : WorkShop J T) :=
  ⟨List.Perm.refl _, rfl, nofun, nofun⟩

/-- A published job with the key of a cancelled one is the cancelled one. -/
theorem Accounted.published_cancelled (h : Accounted kind s)
    (hd : (s.submitted.map (key kind)).Nodup) {j : J} (hj : j ∈ s.cancelled) :
    s.published.filter (fun i => key kind i = key kind j) = [kind.cancel j] := by
  have hkeys : (s.places.map (key kind)).Nodup := by
    have := (h.conserved.map kind.key).nodup_iff
    rw [List.map_map, List.map_map] at this
    exact this.2 hd
  have hpub : (s.published.map (key kind)).Nodup := by
    rw [places, List.map_append] at hkeys
    exact (List.nodup_append.1 hkeys).2.1
  have hkey : key kind (kind.cancel j) = key kind j := congrArg kind.key (kind.ticket_cancel j)
  obtain ⟨before, after, hs⟩ := List.append_of_mem (h.published j hj)
  rw [hs, List.map_append, List.map_cons, hkey] at hpub
  have hnot : key kind j ∉ before.map (key kind) ++ after.map (key kind) :=
    (List.nodup_cons.1 (List.nodup_middle.1 hpub)).1
  have hnone (l : List J) (hl : key kind j ∉ l.map (key kind)) :
      l.filter (fun i => key kind i = key kind j) = [] :=
    List.filter_eq_nil_iff.2 fun i hi he => hl (by
      rw [decide_eq_true_eq] at he
      exact he ▸ List.mem_map_of_mem hi)
  rw [List.mem_append, not_or] at hnot
  rw [hs, List.filter_append, List.filter_cons_of_pos (by simpa using hkey), hnone _ hnot.1,
    hnone _ hnot.2, List.nil_append]

/-- A cancelled job is never taken. -/
theorem Accounted.cancelled_not_taken (h : Accounted kind s) {j : J} (hj : j ∈ s.cancelled) :
    key kind j ∉ s.taken.map (key kind) := by
  intro ht
  have hmem : key kind j ∈ (s.taken ++ s.queue.pending).map (key kind) := by
    rw [List.map_append]
    exact List.mem_append_left _ ht
  rw [h.ordered, List.mem_filter, decide_eq_true_eq] at hmem
  exact hmem.2 (List.mem_map_of_mem hj)

variable [DecidableEq T]

theorem Accounted.finish (h : Accounted kind s) {worker : T} {result : R} {held : T × J}
    (hf : s.working.find? (fun held => held.1 = worker) = some held) :
    Accounted kind { s with
      queue := s.queue.complete (kind.finish held.2 result)
      working := s.working.eraseP fun held => held.1 = worker } := by
  refine h.moved (places_finish hf rfl rfl rfl) rfl rfl rfl fun j hj => ?_
  simp only [WorkShop.published, WorkQueue.complete] at hj ⊢
  rw [← List.append_assoc]
  exact List.mem_append_left _ hj

variable (kind) in
/-- A worker holds one job at a time; it goes away empty-handed when no job
waits. -/
def step (s : WorkShop J T) : WorkStep J T K R → Option (WorkShop J T)
  | .submit j => some { s with queue := s.queue.enqueue j, submitted := s.submitted ++ [j] }
  | .take worker =>
    if worker ∈ s.working.map Prod.fst then none
    else match s.queue.tryDequeue with
      | none => some s
      | some (j, queue) =>
        some { s with
          queue
          working := (worker, kind.start j) :: s.working
          taken := s.taken ++ [j] }
  | .finish worker result =>
    match s.working.find? (fun held => held.1 = worker) with
    | none => none
    | some held =>
      some { s with
        queue := s.queue.complete (kind.finish held.2 result)
        working := s.working.eraseP fun held => held.1 = worker }
  | .cancel k =>
    some { s with
      queue := (s.queue.cancel (fun j => key kind j = k) kind.cancel).2
      cancelled := s.cancelled ++ (s.queue.pending.find? fun j => key kind j = k).toList }
  | .drain => some { s with queue := s.queue.drain.2, drained := s.drained ++ [s.queue.drain.1] }

variable {a : WorkStep J T K R} {acts : List (WorkStep J T K R)}

theorem submitted_step (h : step kind s a = some t) :
    t.submitted = s.submitted ++ (submission a).toList := by
  cases a with
  | submit j => cases h; rfl
  | cancel k => cases h; simp [submission]
  | drain => cases h; simp [submission]
  | take worker =>
    simp only [step] at h
    split at h
    · cases h
    · split at h <;> cases h <;> simp [submission]
  | finish worker result =>
    simp only [step] at h
    split at h <;> cases h
    simp [submission]

theorem submitted_run (h : Machine.run (step kind) s acts = some t) :
    t.submitted = s.submitted ++ acts.filterMap submission := by
  induction acts generalizing s with
  | nil => cases h; simp
  | cons a acts ih =>
    obtain ⟨u, hu, h⟩ := Machine.run_cons.1 h
    rw [ih h, submitted_step hu, List.append_assoc]
    cases hs : submission a <;> simp [hs]

theorem Accounted.step (h : Accounted kind s) (ht : WorkShop.step kind s a = some t)
    (hd : (t.submitted.map (key kind)).Nodup) : Accounted kind t := by
  rw [submitted_step ht] at hd
  cases a with
  | submit j =>
    cases ht
    refine h.submit fun hmem => ?_
    rw [submission, Option.toList_some, List.map_append] at hd
    exact (List.nodup_append.1 hd).2.2 _ hmem _ (by simp) rfl
  | take worker =>
    simp only [WorkShop.step] at ht
    split at ht
    · cases ht
    · split at ht <;> cases ht
      · exact h
      · rename_i hq
        exact h.take hq
  | finish worker result =>
    simp only [WorkShop.step] at ht
    split at ht <;> cases ht
    rename_i hf
    exact h.finish hf
  | cancel k =>
    cases ht
    exact h.cancel (by simpa [submission] using hd) k
  | drain =>
    cases ht
    refine h.moved (.of_eq (places_drain rfl rfl rfl)) rfl rfl rfl fun j hj => ?_
    simpa [WorkShop.published, WorkQueue.drain] using hj

/-- As long as the keys of the submitted jobs are distinct, every job is
accounted for. -/
theorem Accounted.run (h : Accounted kind s) (hr : Machine.run (WorkShop.step kind) s acts = some t)
    (hd : (t.submitted.map (key kind)).Nodup) : Accounted kind t := by
  induction acts generalizing s with
  | nil => cases hr; exact h
  | cons a acts ih =>
    obtain ⟨u, hu, hr⟩ := Machine.run_cons.1 hr
    refine ih (h.step hu ?_) hr
    rw [submitted_run hr, List.map_append] at hd
    exact (List.nodup_append.1 hd).1

/-- What is known of a job by where it is. -/
structure Staged (waiting held published : J → Prop) (s : WorkShop J T) : Prop where
  pending : ∀ j ∈ s.queue.pending, waiting j
  working : ∀ h ∈ s.working, held h.2
  published : ∀ j ∈ s.published, published j

/-- The four ways a job gets somewhere. -/
theorem Staged.step {waiting held published : J → Prop} (h : Staged waiting held published s)
    (ht : WorkShop.step kind s a = some t) (hsubmit : ∀ j, a = .submit j → waiting j)
    (hstart : ∀ j, waiting j → held (kind.start j))
    (hfinish : ∀ worker r j, a = .finish worker r → held j → published (kind.finish j r))
    (hcancel : ∀ j, waiting j → published (kind.cancel j)) :
    Staged waiting held published t := by
  obtain ⟨hpending, hworking, hpublished⟩ := h
  cases a with
  | submit j =>
    cases ht
    refine ⟨fun i hi => ?_, hworking, hpublished⟩
    rcases List.mem_append.1 hi with hi | hi
    · exact hpending i hi
    · rw [List.mem_singleton] at hi
      exact hi ▸ hsubmit j rfl
  | take worker =>
    simp only [WorkShop.step] at ht
    split at ht
    · cases ht
    · split at ht <;> cases ht
      · exact ⟨hpending, hworking, hpublished⟩
      · rename_i j queue hq
        unfold WorkQueue.tryDequeue at hq
        split at hq <;> cases hq
        rename_i rest hp
        rw [hp] at hpending
        refine ⟨fun i hi => hpending i (List.mem_cons_of_mem j hi), fun i hi => ?_, hpublished⟩
        rcases List.mem_cons.1 hi with rfl | hi
        · exact hstart j (hpending j List.mem_cons_self)
        · exact hworking i hi
  | finish worker result =>
    simp only [WorkShop.step] at ht
    split at ht <;> cases ht
    rename_i i hf
    refine ⟨hpending, fun k hk => hworking k (List.mem_of_mem_eraseP hk), fun k hk => ?_⟩
    simp only [WorkShop.published, WorkQueue.complete, ← List.append_assoc] at hk
    rcases List.mem_append.1 hk with hk | hk
    · exact hpublished k hk
    · rw [List.mem_singleton] at hk
      exact hk ▸ hfinish worker result i.2 rfl (hworking i (List.mem_of_find?_eq_some hf))
  | cancel k =>
    cases ht
    unfold WorkQueue.cancel
    cases hf : s.queue.pending.find? (fun j => key kind j = k) with
    | none => exact ⟨hpending, hworking, hpublished⟩
    | some j =>
      refine ⟨fun i hi => hpending i (List.mem_of_mem_eraseP hi), hworking, fun i hi => ?_⟩
      simp only [WorkShop.published, ← List.append_assoc] at hi
      rcases List.mem_append.1 hi with hi | hi
      · exact hpublished i hi
      · rw [List.mem_singleton] at hi
        exact hi ▸ hcancel j (hpending j (List.mem_of_find?_eq_some hf))
  | drain =>
    cases ht
    refine ⟨hpending, hworking, fun j hj => hpublished j ?_⟩
    simpa [WorkShop.published, WorkQueue.drain] using hj

/-- Cancelled jobs stay cancelled. -/
theorem cancelled_run (hr : Machine.run (step kind) s acts = some t) :
    ∀ j ∈ s.cancelled, j ∈ t.cancelled := by
  refine Machine.run_keeps (I := fun t => ∀ j ∈ s.cancelled, j ∈ t.cancelled)
    (fun u a v hu hv j hj => ?_) (fun _ => id) hr
  have hmem := hu j hj
  cases a with
  | submit | drain => cases hv; exact hmem
  | cancel => cases hv; exact List.mem_append_left _ hmem
  | take =>
    simp only [step] at hv
    split at hv
    · cases hv
    · split at hv <;> cases hv <;> exact hmem
  | finish =>
    simp only [step] at hv
    split at hv <;> cases hv
    exact hmem

/-- No step loses or duplicates a job. -/
theorem places_step (h : step kind s a = some t) :
    (t.places.map kind.ticket).Perm
      (s.places.map kind.ticket ++ (submission a).toList.map kind.ticket) := by
  cases a with
  | submit j => cases h; exact places_submit (s := s) rfl rfl rfl
  | take worker =>
    simp only [step] at h
    simp only [submission, Option.toList_none, List.map_nil, List.append_nil]
    split at h
    · cases h
    · split at h <;> cases h
      · exact .refl _
      · rename_i hq
        exact places_take hq rfl rfl
  | finish worker result =>
    simp only [step] at h
    simp only [submission, Option.toList_none, List.map_nil, List.append_nil]
    split at h <;> cases h
    rename_i hf
    exact places_finish hf rfl rfl rfl
  | cancel k =>
    cases h
    simp only [submission, Option.toList_none, List.map_nil, List.append_nil]
    exact places_cancel (s := s) rfl rfl rfl
  | drain =>
    cases h
    simp only [submission, Option.toList_none, List.map_nil, List.append_nil]
    exact .of_eq (places_drain (s := s) rfl rfl rfl)

end WorkShop

/-! ## Workers that give up -/

/-- A worker may also end without finishing its job. -/
inductive WorkEvent (J T K R : Type)
  | step (a : WorkStep J T K R)
  | abandon (worker : T)

/-- A shop, and the jobs whose workers gave up. -/
structure WorkFloor (J T : Type) where
  shop : WorkShop J T := {}
  abandoned : List J := []

namespace WorkFloor

variable {J V K R T : Type} [DecidableEq K] [DecidableEq T]

def step (kind : JobKind J V K R) (f : WorkFloor J T) : WorkEvent J T K R → Option (WorkFloor J T)
  | .step a => (WorkShop.step kind f.shop a).map fun shop => { f with shop }
  | .abandon worker =>
    (f.shop.working.find? fun held => held.1 = worker).map fun held =>
      { shop := { f.shop with working := f.shop.working.eraseP fun held => held.1 = worker }
        abandoned := f.abandoned ++ [held.2] }

/-- The job submitted by an event. -/
def submission : WorkEvent J T K R → Option J
  | .step a => WorkShop.submission a
  | .abandon _ => none

def gaveUp : WorkEvent J T K R → Bool
  | .step _ => false
  | .abandon _ => true

variable {kind : JobKind J V K R} {f g : WorkFloor J T} {e : WorkEvent J T K R}
  {events : List (WorkEvent J T K R)}

theorem places_step (h : step kind f e = some g) :
    ((g.shop.places ++ g.abandoned).map kind.ticket).Perm
        ((f.shop.places ++ f.abandoned).map kind.ticket ++
          (submission e).toList.map kind.ticket) ∧
      g.abandoned.length = f.abandoned.length + (gaveUp e).toNat := by
  cases e with
  | step a =>
    obtain ⟨shop, hs, rfl⟩ := Option.map_eq_some_iff.1 h
    refine ⟨?_, rfl⟩
    have hplaces := WorkShop.places_step hs
    classical
    rw [List.perm_iff_count] at hplaces ⊢
    intro v
    have := hplaces v
    simp only [submission, List.map_append, List.count_append] at this ⊢
    omega
  | abandon worker =>
    obtain ⟨held, hf, rfl⟩ := Option.map_eq_some_iff.1 h
    refine ⟨?_, by simp [gaveUp]⟩
    let shop : WorkShop J T :=
      { f.shop with working := f.shop.working.eraseP fun held => held.1 = worker }
    have hplaces : (shop.places.map kind.ticket ++ [kind.ticket held.2]).Perm
        (f.shop.places.map kind.ticket) := WorkShop.places_drop hf rfl rfl rfl
    classical
    rw [List.perm_iff_count] at hplaces ⊢
    intro v
    have := hplaces v
    simp only [shop, submission, Option.toList_none, List.map_append, List.map_cons, List.map_nil,
      List.count_append, List.count_nil] at this ⊢
    omega

/-- Every job submitted in a run is in one place, or its worker gave up. -/
theorem places_run (h : Machine.run (step kind) {} events = some f) :
    ((f.shop.places ++ f.abandoned).map kind.ticket).Perm
        ((events.filterMap submission).map kind.ticket) ∧
      f.abandoned.length = events.countP gaveUp := by
  suffices hrun : ∀ g : WorkFloor J T, Machine.run (step kind) g events = some f →
      ((f.shop.places ++ f.abandoned).map kind.ticket).Perm
          ((g.shop.places ++ g.abandoned).map kind.ticket ++
            (events.filterMap submission).map kind.ticket) ∧
        f.abandoned.length = g.abandoned.length + events.countP gaveUp by
    simpa [WorkShop.places, WorkShop.published] using hrun {} h
  clear h
  induction events with
  | nil => intro g h; cases h; simp
  | cons e events ih =>
    intro g h
    obtain ⟨g', hg, h⟩ := Machine.run_cons.1 h
    obtain ⟨hplaces, habandoned⟩ := ih g' h
    obtain ⟨hplaces₀, habandoned₀⟩ := places_step hg
    constructor
    · refine hplaces.trans ((hplaces₀.append_right _).trans (.of_eq ?_))
      rw [List.append_assoc, ← List.map_append]
      cases hs : submission e <;> simp [hs]
    · rw [habandoned, habandoned₀, List.countP_cons]
      cases gaveUp e
      · simp
      · simp only [Bool.toNat_true, if_true]
        omega

/-- How the call of a worker ends. -/
def ending {E : Type} (worker : T) : Except E R → WorkEvent J T K R
  | .ok r => .step (.finish worker r)
  | .error _ => .abandon worker

/-- A call that nobody interrupts is one of the two ways through the floor. -/
theorem run_serve {E : Type} (work : J → Except E R) {worker : T} {j : J} {rest : WorkQueue J}
    (hidle : worker ∉ f.shop.working.map Prod.fst)
    (hq : f.shop.queue.tryDequeue = some (j, rest)) :
    ∃ g, Machine.run (step kind) f
        [.step (.take worker), ending worker (work (kind.start j))] = some g ∧
      g.shop.queue = (f.shop.queue.serve kind work).2 := by
  simp only [Machine.run_cons, Machine.run_nil, Option.some.injEq, step, WorkShop.step,
    if_neg hidle, hq, Option.map_some]
  cases hw : work (kind.start j) with
  | ok r =>
    rw [WorkQueue.serve_of_ok hq hw]
    exact ⟨_, ⟨_, rfl, _, by simp [ending]; rfl, rfl⟩, rfl⟩
  | error e =>
    rw [WorkQueue.serve_of_error hq hw]
    exact ⟨_, ⟨_, rfl, _, by simp [ending]; rfl, rfl⟩, rfl⟩

end WorkFloor
