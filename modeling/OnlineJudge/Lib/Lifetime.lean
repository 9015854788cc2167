import OnlineJudge.Lib.Machine

/-!
# Lifetimes

What happens to a resource that is acquired, used and released: an automaton
that refuses a use before it is acquired, and anything after its release.
-/

/-- What one operation does to the resource. -/
inductive Handling
  | acquired | used | released
  deriving DecidableEq, Repr

inductive Lifetime
  | unborn | held | ended
  deriving DecidableEq, Repr

namespace Lifetime

def step : Lifetime → Handling → Option Lifetime
  | unborn, .acquired => some held
  | held, .used => some held
  | held, .released => some ended
  | _, _ => none

/-- The lifetime after these operations, when none of them is out of place. -/
def after (trace : List Handling) : Option Lifetime := Machine.run step unborn trace

variable {trace more : List Handling} {stage stage' : Lifetime}

theorem after_append (h : after trace = some stage)
    (hm : Machine.run step stage more = some stage') : after (trace ++ more) = some stage' := by
  unfold after at h ⊢
  rw [Machine.run_append, h]
  exact hm

theorem run_ended : Machine.run step ended trace = some stage ↔ trace = [] ∧ stage = ended := by
  cases trace with
  | nil => simp [eq_comm]
  | cons a trace => cases a <;> simp [Machine.run, step]

/-- What was acquired once is never unborn again. -/
theorem ne_unborn_of_run_held (h : Machine.run step held trace = some stage) : stage ≠ unborn := by
  have hkeep : ∀ s a t, s ≠ unborn → step s a = some t → t ≠ unborn := by
    intro s a t hs ht
    cases s <;> cases a <;> simp only [step, Option.some.injEq, reduceCtorEq] at ht <;>
      subst ht <;> simp_all
  exact Machine.run_keeps (I := fun s => s ≠ unborn) hkeep (by simp) h

theorem run_held_ended :
    Machine.run step held trace = some ended ↔
      ∃ uses, trace = uses ++ [.released] ∧ ∀ u ∈ uses, u = .used := by
  induction trace with
  | nil => simp
  | cons a trace ih =>
    rw [Machine.run_cons]
    cases a with
    | acquired =>
      refine iff_of_false (by simp [step]) ?_
      rintro ⟨_ | ⟨u, uses⟩, he, hu⟩
      · cases he
      · cases he
        exact absurd (hu _ List.mem_cons_self) (by simp)
    | used =>
      simp only [step, Option.some.injEq, exists_eq_left', ih]
      constructor
      · rintro ⟨uses, rfl, hu⟩
        exact ⟨.used :: uses, rfl, by simpa using hu⟩
      · rintro ⟨_ | ⟨u, uses⟩, he, hu⟩
        · cases he
        · cases he
          exact ⟨uses, rfl, fun v hv => hu v (List.mem_cons_of_mem _ hv)⟩
    | released =>
      simp only [step, Option.some.injEq, exists_eq_left', run_ended, and_true]
      constructor
      · rintro rfl
        exact ⟨[], rfl, by rintro _ ⟨⟩⟩
      · rintro ⟨_ | ⟨u, uses⟩, he, hu⟩
        · cases he
          rfl
        · cases he
          exact absurd (hu _ List.mem_cons_self) (by simp)

/-- A lifetime has ended when the resource was acquired, used, and then released
once. -/
theorem after_eq_ended_iff :
    after trace = some ended ↔
      ∃ uses, trace = .acquired :: uses ++ [.released] ∧ ∀ u ∈ uses, u = .used := by
  cases trace with
  | nil => simp [after]
  | cons a trace =>
    rw [after, Machine.run_cons]
    cases a with
    | acquired => simp [step, run_held_ended]
    | used | released => simp [step]

theorem after_eq_unborn_iff : after trace = some unborn ↔ trace = [] := by
  constructor
  · intro h
    cases trace with
    | nil => rfl
    | cons a trace =>
      obtain ⟨stage, hs, hr⟩ := Machine.run_cons.1 h
      cases a <;> simp only [step, Option.some.injEq, reduceCtorEq] at hs
      subst hs
      exact absurd rfl (ne_unborn_of_run_held hr)
  · rintro rfl
    rfl

/-- Acquired or not, the resource is not held in the end, and nothing was done to
it out of place. -/
def Settled (trace : List Handling) : Prop :=
  trace = [] ∨ ∃ uses, trace = .acquired :: uses ++ [.released] ∧ ∀ u ∈ uses, u = .used

theorem settled_iff (h : after trace = some stage) : Settled trace ↔ stage ≠ held := by
  unfold Settled
  rw [← after_eq_unborn_iff, ← after_eq_ended_iff, h]
  cases stage <;> simp

/-- The lifetime of what was acquired, by whether it is still open. -/
def ofOpen (isOpen : Bool) : Lifetime := if isOpen then held else ended

/-- Uses of what is open, and then at most one release. -/
theorem run_uses_releases {isOpen isOpen' : Bool} {uses releases : Nat}
    (hu : uses ≠ 0 → isOpen = true) (hr : releases + isOpen'.toNat = isOpen.toNat) :
    Machine.run step (ofOpen isOpen)
      (List.replicate uses .used ++ List.replicate releases .released) = some (ofOpen isOpen') := by
  have huses :
      Machine.run step (ofOpen isOpen) (List.replicate uses .used) = some (ofOpen isOpen) := by
    clear hr
    induction uses with
    | zero => rfl
    | succ n ih =>
      rw [List.replicate_succ, Machine.run_cons]
      refine ⟨ofOpen isOpen, by rw [hu n.succ_ne_zero]; rfl, ih fun _ => hu n.succ_ne_zero⟩
  rw [Machine.run_append, huses, Option.bind_some]
  cases isOpen <;> cases isOpen' <;> simp at hr <;> subst hr <;> rfl

section
variable {S A : Type} {next : S → A → Option S} {P : S → A → Prop} {s t : S} {as : List A}

/-- What the steps of a machine do to a resource, when `I` says which lifetimes
go with a state. -/
theorem exists_after_collect {I : S → Lifetime → Prop} (handlings : S → A → List Handling)
    (follow : ∀ s a t stage, P s a → I s stage → next s a = some t →
      ∃ stage', Machine.run step stage (handlings s a) = some stage' ∧ I t stage')
    (h0 : I s unborn) (hp : Machine.Along next P s as) (hr : Machine.run next s as = some t) :
    ∃ stage, after (Machine.collect next handlings s as) = some stage ∧ I t stage := by
  have := Machine.run_collect (f := handlings)
    (I := fun l s => ∃ stage, after l = some stage ∧ I s stage)
    (fun l s a t hp ⟨stage, hl, hi⟩ ht => by
      obtain ⟨stage', hm, hi'⟩ := follow s a t stage hp hi ht
      exact ⟨stage', after_append hl hm, hi'⟩)
    (l := []) ⟨unborn, rfl, h0⟩ hp hr
  simpa using this

/-- The same when `stage` tells the lifetime in every state. -/
theorem after_collect {I : S → Prop} (handlings : S → A → List Handling) (stage : S → Lifetime)
    (keep : ∀ s a t, P s a → I s → next s a = some t → I t)
    (follow : ∀ s a t, P s a → I s → next s a = some t →
      Machine.run step (stage s) (handlings s a) = some (stage t))
    (h0 : I s) (hs : stage s = unborn) (hp : Machine.Along next P s as)
    (hr : Machine.run next s as = some t) :
    after (Machine.collect next handlings s as) = some (stage t) := by
  obtain ⟨_, ha, -, rfl⟩ := exists_after_collect (I := fun s l => I s ∧ l = stage s) handlings
    (fun s a t _ hp hi ht => ⟨stage t, hi.2 ▸ follow s a t hp hi.1 ht, keep s a t hp hi.1 ht, rfl⟩)
    ⟨h0, hs.symm⟩ hp hr
  exact ha

end

end Lifetime
