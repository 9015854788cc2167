import OnlineJudge.Lib.FdTable
import OnlineJudge.Lib.Lifetime

/-!
# A descriptor table with several owners

The threads of a process share one descriptor table. Each owner keeps the number
of a descriptor it has opened in a variable of its own, and closes whatever is
open under that number.

* `SharedTable.step`: an owner opens a file under a free number, or closes it;
* `SharedTable.Sound`: the table holds what the owners hold, and what it held
  before;
* `SharedTable.Sound.run`: so it stays as long as each owner closes what it has
  opened, and only once;
* `FdTable.exec`: the descriptors that the start of a program leaves open.
-/

structure SharedTable (F O D : Type) where
  table : FdTable F
  number : O → D → Nat

inductive TableOp (O D : Type)
  | acquire (owner : O) (d : D) (fd : Nat)
  | release (owner : O) (d : D)
  deriving DecidableEq

namespace TableOp

variable {O D : Type} [DecidableEq O] [DecidableEq D]

/-- What an operation does to a descriptor of an owner. -/
def handlings (owner : O) (d : D) : TableOp O D → List Handling
  | acquire o d' _ => if o = owner ∧ d' = d then [.acquired] else []
  | release o d' => if o = owner ∧ d' = d then [.released] else []

/-- What a list of operations does to it. -/
def trace (owner : O) (d : D) (ops : List (TableOp O D)) : List Handling :=
  ops.flatMap (handlings owner d)

end TableOp

namespace Lifetime

variable {stage stage' : Lifetime}

theorem run_acquired :
    Machine.run step stage [.acquired] = some stage' ↔ stage = unborn ∧ stage' = held := by
  cases stage <;> simp [Machine.run, step, eq_comm]

theorem run_released :
    Machine.run step stage [.released] = some stage' ↔ stage = held ∧ stage' = ended := by
  cases stage <;> simp [Machine.run, step, eq_comm]

/-- A use does not show in the lifetime. -/
theorem after_filter_used {trace : List Handling} (h : after trace = some stage) :
    after (trace.filter (· ≠ .used)) = some stage := by
  unfold after at h ⊢
  generalize unborn = start at h ⊢
  induction trace generalizing start with
  | nil => exact h
  | cons a trace ih =>
    obtain ⟨t, ht, hr⟩ := Machine.run_cons.1 h
    cases a with
    | used =>
      obtain rfl : start = t := by
        cases start <;> simp_all [step]
      simpa using ih start hr
    | acquired | released => exact Machine.run_cons.2 ⟨t, ht, ih t hr⟩

end Lifetime

namespace SharedTable

variable {F O D : Type} [DecidableEq O] [DecidableEq D]

section
variable (file : O → D → F)

/-- A number is given only while it is free; what is closed is whatever has the
number. -/
def step (s : SharedTable F O D) : TableOp O D → Option (SharedTable F O D)
  | .acquire owner d fd =>
    if h : fd < s.table.limit then
      if (s.table.slot fd).isNone then
        some
          { table := s.table.set fd (file owner d) h
            number := Function.update s.number owner (Function.update (s.number owner) d fd) }
      else none
    else none
  | .release owner d => some { s with table := s.table.close (s.number owner d) }

/-- `start` is the table before the first owner. -/
structure Sound (start : FdTable F) (stage : O → D → Lifetime) (s : SharedTable F O D) : Prop where
  owned : ∀ fd owner d,
    s.table.slot fd = some (file owner d) ↔ s.number owner d = fd ∧ stage owner d = .held
  others : ∀ fd f, (∀ owner d, f ≠ file owner d) →
    (s.table.slot fd = some f ↔ start.slot fd = some f)

end

variable {file : O → D → F} {start : FdTable F} {stage : O → D → Lifetime}
  {s s' : SharedTable F O D}

omit [DecidableEq O] [DecidableEq D] in
theorem Sound.init (hstart : ∀ fd owner d, start.slot fd ≠ some (file owner d))
    (number : O → D → Nat) : Sound file start (fun _ _ => .unborn) ⟨start, number⟩ := by
  refine ⟨fun fd owner d => ?_, fun _ _ _ => Iff.rfl⟩
  simp [hstart fd owner d]

section
variable {owner : O} {d : D} {fd : Nat} {stage' : O → D → Lifetime}

/-- What an operation says of the lifetimes. -/
theorem stages_of_acquire
    (hv : ∀ o e, Machine.run Lifetime.step (stage o e)
      ((TableOp.acquire owner d fd).handlings o e) = some (stage' o e)) :
    stage owner d = .unborn ∧ stage' owner d = .held ∧
      ∀ o e, ¬ (owner = o ∧ d = e) → stage' o e = stage o e := by
  have hown := hv owner d
  rw [TableOp.handlings, if_pos ⟨rfl, rfl⟩, Lifetime.run_acquired] at hown
  refine ⟨hown.1, hown.2, fun o e hne => ?_⟩
  have hother := hv o e
  rw [TableOp.handlings, if_neg hne] at hother
  exact (Option.some.inj hother).symm

theorem stages_of_release
    (hv : ∀ o e, Machine.run Lifetime.step (stage o e)
      ((TableOp.release owner d).handlings o e) = some (stage' o e)) :
    stage owner d = .held ∧ stage' owner d = .ended ∧
      ∀ o e, ¬ (owner = o ∧ d = e) → stage' o e = stage o e := by
  have hown := hv owner d
  rw [TableOp.handlings, if_pos ⟨rfl, rfl⟩, Lifetime.run_released] at hown
  refine ⟨hown.1, hown.2, fun o e hne => ?_⟩
  have hother := hv o e
  rw [TableOp.handlings, if_neg hne] at hother
  exact (Option.some.inj hother).symm

variable (hfile : ∀ o e o' e', file o e = file o' e' → o = o' ∧ e = e')
include hfile

theorem Sound.acquire (h : Sound file start stage s)
    (ht : step file s (.acquire owner d fd) = some s')
    (hv : ∀ o e, Machine.run Lifetime.step (stage o e)
      ((TableOp.acquire owner d fd).handlings o e) = some (stage' o e)) :
    Sound file start stage' s' := by
  obtain ⟨hunborn, hheld, hsame⟩ := stages_of_acquire hv
  simp only [step] at ht
  split at ht
  · rename_i hlimit
    split at ht <;> cases ht
    rename_i hnone
    rw [Option.isNone_iff_eq_none] at hnone
    refine ⟨fun fd' o e => ?_, fun fd' f hf => ?_⟩
    · simp only [FdTable.slot_set, Function.update_apply]
      by_cases hne : owner = o ∧ d = e
      · obtain ⟨rfl, rfl⟩ := hne
        have hold := h.owned fd' owner d
        by_cases hfd : fd' = fd
        · simp [hfd, hheld]
        · simp [hfd, hold, hunborn, Ne.symm hfd]
      · have hnumber : (if o = owner then Function.update (s.number owner) d fd else s.number o) e =
            s.number o e := by
          by_cases ho : o = owner
          · subst ho
            rw [if_pos rfl, Function.update_of_ne fun he => hne ⟨rfl, he.symm⟩]
          · rw [if_neg ho]
        rw [hnumber, hsame o e hne]
        by_cases hfd : fd' = fd
        · subst hfd
          rw [if_pos rfl, ← h.owned, hnone]
          simp only [reduceCtorEq, iff_false, Option.some.injEq]
          exact fun heq => hne (hfile _ _ _ _ heq)
        · rw [if_neg hfd]
          exact h.owned fd' o e
    · rw [← h.others fd' f hf, FdTable.slot_set, Function.update_apply]
      split
      · rename_i hfd
        subst hfd
        rw [hnone]
        simp only [reduceCtorEq, iff_false, Option.some.injEq]
        exact fun heq => hf owner d heq.symm
      · exact Iff.rfl
  · cases ht

theorem Sound.release (h : Sound file start stage s)
    (ht : step file s (.release owner d) = some s')
    (hv : ∀ o e, Machine.run Lifetime.step (stage o e)
      ((TableOp.release owner d).handlings o e) = some (stage' o e)) :
    Sound file start stage' s' := by
  obtain ⟨hheld, hended, hsame⟩ := stages_of_release hv
  have hslot : s.table.slot (s.number owner d) = some (file owner d) :=
    (h.owned _ owner d).2 ⟨rfl, hheld⟩
  cases ht
  refine ⟨fun fd' o e => ?_, fun fd' f hf => ?_⟩
  · simp only [FdTable.slot_close, Function.update_apply]
    by_cases hne : owner = o ∧ d = e
    · obtain ⟨rfl, rfl⟩ := hne
      by_cases hfd : fd' = s.number owner d
      · simp [hfd, hended]
      · simp [hfd, h.owned fd' owner d, hended, Ne.symm hfd]
    · rw [hsame o e hne, ← h.owned]
      split
      · rename_i hfd
        subst hfd
        rw [hslot]
        simp only [reduceCtorEq, false_iff, Option.some.injEq]
        exact fun heq => hne (hfile _ _ _ _ heq)
      · exact Iff.rfl
  · rw [← h.others fd' f hf, FdTable.slot_close, Function.update_apply]
    split
    · rename_i hfd
      subst hfd
      rw [hslot]
      simp only [reduceCtorEq, false_iff, Option.some.injEq]
      exact fun heq => hf owner d heq.symm
    · exact Iff.rfl

/-- As long as each descriptor has a lifetime, the table holds what is due. -/
theorem Sound.run {ops : List (TableOp O D)} (h : Sound file start stage s)
    (hr : Machine.run (step file) s ops = some s')
    (hv : ∀ o e,
      Machine.run Lifetime.step (stage o e) (TableOp.trace o e ops) = some (stage' o e)) :
    Sound file start stage' s' := by
  induction ops generalizing s stage with
  | nil =>
    cases hr
    have heq : stage' = stage := funext fun o => funext fun e => (Option.some.inj (hv o e)).symm
    rwa [heq]
  | cons op ops ih =>
    obtain ⟨t, ht, hr⟩ := Machine.run_cons.1 hr
    -- the lifetimes after the first operation
    have hmid (o : O) (e : D) : ∃ mid, Machine.run Lifetime.step (stage o e) (op.handlings o e) =
        some mid ∧ Machine.run Lifetime.step mid (TableOp.trace o e ops) = some (stage' o e) := by
      have := hv o e
      rw [TableOp.trace, List.flatMap_cons, Machine.run_append] at this
      exact Option.bind_eq_some_iff.1 this
    choose mid hfirst hrest using hmid
    refine ih ?_ hr hrest
    cases op with
    | acquire owner d fd => exact h.acquire hfile ht hfirst
    | release owner d => exact h.release hfile ht hfirst

end

end SharedTable

/-! ## Programs -/

namespace FdTable

variable {δ : Type}

/-- What is left after the start of another program. -/
def exec (closesOnExec : δ → Bool) (t : FdTable δ) : FdTable δ where
  slot fd := (t.slot fd).filter fun d => !closesOnExec d
  limit := t.limit
  closed fd hfd := by rw [t.closed fd hfd]; rfl

end FdTable
