import Mathlib.Tactic.Common

/-!
# Runs of a partial step function

A machine is a function `step : S → A → Option S`: an action either cannot
happen in a state or leads to exactly one next state, so all nondeterminism is
in the list of actions.

* `run`: the state a list of actions leads to;
* `Along`: every step of a run meets a condition on the state before it;
* `Sometime`: some step of a run does;
* `Always`: every state of a run meets a condition, its ends included;
* `collect`: what the steps of a run yield;
* `run_invariant`: what one permitted step keeps, a permitted run keeps;
* `run_of_sometime`: what some step brings about and the others keep.
-/

namespace Machine

section
variable {S A : Type} (step : S → A → Option S)

/-- The state after a list of actions, when each of them can happen. -/
def run : S → List A → Option S
  | s, [] => some s
  | s, a :: as => (step s a).bind fun t => run t as

/-- Every step of the run from `s` happens in a state and by an action that
meet `P`. -/
def Along (P : S → A → Prop) : S → List A → Prop
  | _, [] => True
  | s, a :: as => P s a ∧ ∀ t, step s a = some t → Along P t as

/-- Some step of the run from `s` happens in a state and by an action that
meet `P`. -/
def Sometime (P : S → A → Prop) : S → List A → Prop
  | _, [] => False
  | s, a :: as => P s a ∨ ∃ t, step s a = some t ∧ Sometime P t as

/-- Every state of the run from `s` meets `I`. -/
def Always (I : S → Prop) : S → List A → Prop
  | s, [] => I s
  | s, a :: as => I s ∧ ∀ t, step s a = some t → Always I t as

/-- What the steps of the run from `s` yield, in order. -/
def collect {B : Type} (f : S → A → List B) : S → List A → List B
  | _, [] => []
  | s, a :: as => f s a ++ ((step s a).elim [] fun t => collect f t as)

variable {step} in
instance decidableAlong {P : S → A → Prop} [∀ s a, Decidable (P s a)] :
    (s : S) → (as : List A) → Decidable (Along step P s as)
  | _, [] => .isTrue trivial
  | s, a :: as =>
    match h : step s a with
    | none => decidable_of_iff (P s a) (by simp [Along, h])
    | some t =>
      have : Decidable (Along step P t as) := decidableAlong t as
      decidable_of_iff (P s a ∧ Along step P t as) (by simp [Along, h])

variable {step} in
instance decidableSometime {P : S → A → Prop} [∀ s a, Decidable (P s a)] :
    (s : S) → (as : List A) → Decidable (Sometime step P s as)
  | _, [] => .isFalse id
  | s, a :: as =>
    match h : step s a with
    | none => decidable_of_iff (P s a) (by simp [Sometime, h])
    | some t =>
      have : Decidable (Sometime step P t as) := decidableSometime t as
      decidable_of_iff (P s a ∨ Sometime step P t as) (by simp [Sometime, h])

variable {step} {P Q : S → A → Prop} {s t u : S} {a : A} {as bs : List A}

@[simp] theorem run_nil : run step s [] = some s := rfl

theorem run_cons :
    run step s (a :: as) = some u ↔ ∃ t, step s a = some t ∧ run step t as = some u := by
  simp only [run, Option.bind_eq_some_iff]

theorem run_append : run step s (as ++ bs) = (run step s as).bind fun t => run step t bs := by
  induction as generalizing s with
  | nil => rfl
  | cons a as ih =>
    cases h : step s a with
    | none => simp [run, h]
    | some t => simp [run, h, ih]

theorem run_snoc :
    run step s (as ++ [a]) = some u ↔ ∃ t, run step s as = some t ∧ step t a = some u := by
  simp only [run_append, Option.bind_eq_some_iff, run_cons, run_nil, Option.some.injEq,
    exists_eq_right]

theorem Along.mono (h : ∀ s a, P s a → Q s a) (hp : Along step P s as) : Along step Q s as := by
  induction as generalizing s with
  | nil => trivial
  | cons a as ih => exact ⟨h s a hp.1, fun t ht => ih (hp.2 t ht)⟩

theorem Along.and (hp : Along step P s as) (hq : Along step Q s as) :
    Along step (fun s a => P s a ∧ Q s a) s as := by
  induction as generalizing s with
  | nil => trivial
  | cons a as ih => exact ⟨⟨hp.1, hq.1⟩, fun t ht => ih (hp.2 t ht) (hq.2 t ht)⟩

theorem along_snoc (hr : run step s as = some t) :
    Along step P s (as ++ [a]) ↔ Along step P s as ∧ P t a := by
  induction as generalizing s with
  | nil =>
    cases hr
    simp [Along]
  | cons b as ih =>
    obtain ⟨u, hu, hr⟩ := run_cons.1 hr
    simp only [List.cons_append, Along, hu, Option.some.injEq, forall_eq', ih hr, and_assoc]

theorem along_of_forall (h : ∀ a ∈ as, ∀ s, P s a) : Along step P s as := by
  induction as generalizing s with
  | nil => trivial
  | cons a as ih =>
    exact ⟨h a List.mem_cons_self s, fun t _ => ih fun b hb => h b (List.mem_cons_of_mem a hb)⟩

theorem always_keeps {I : S → Prop} (keep : ∀ s a t, P s a → I s → step s a = some t → I t)
    (h0 : I s) (hp : Along step P s as) : Always step I s as := by
  induction as generalizing s with
  | nil => exact h0
  | cons a as ih => exact ⟨h0, fun t ht => ih (keep s a t hp.1 h0 ht) (hp.2 t ht)⟩

theorem Always.mono {I J : S → Prop} (h : ∀ s, I s → J s) (hi : Always step I s as) :
    Always step J s as := by
  induction as generalizing s with
  | nil => exact h s hi
  | cons a as ih => exact ⟨h s hi.1, fun t ht => ih (hi.2 t ht)⟩

theorem Always.head {I : S → Prop} (h : Always step I s as) : I s := by
  cases as with
  | nil => exact h
  | cons a as => exact h.1

theorem collect_snoc {B : Type} {f : S → A → List B} (hr : run step s as = some t) :
    collect step f s (as ++ [a]) = collect step f s as ++ f t a := by
  induction as generalizing s with
  | nil =>
    cases hr
    cases h : step t a <;> simp [collect, h]
  | cons b as ih =>
    obtain ⟨u, hu, hr⟩ := run_cons.1 hr
    simp only [List.cons_append, collect, hu, Option.elim_some, ih hr, List.append_assoc]

/-- A run that never meets `P` meets its negation all along. -/
theorem along_not_of_not_sometime (h : ¬ Sometime step P s as) :
    Along step (fun s a => ¬ P s a) s as := by
  induction as generalizing s with
  | nil => trivial
  | cons a as ih =>
    refine ⟨fun hp => h (.inl hp), fun t ht => ih fun hs => h (.inr ⟨t, ht, hs⟩)⟩

/-- A run that does not meet `P` all along has a step that does not meet it. -/
theorem exists_of_not_along (h : ¬ Along step P s as) :
    ∃ pre a post t, as = pre ++ a :: post ∧ run step s pre = some t ∧ ¬ P t a := by
  induction as generalizing s with
  | nil => exact absurd trivial h
  | cons a as ih =>
    by_cases hp : P s a
    · have hrest : ∃ t, step s a = some t ∧ ¬ Along step P t as := by
        by_contra hno
        exact h ⟨hp, fun t ht => by_contra fun hn => hno ⟨t, ht, hn⟩⟩
      obtain ⟨t, ht, hn⟩ := hrest
      obtain ⟨pre, b, post, u, rfl, hu, hb⟩ := ih hn
      exact ⟨a :: pre, b, post, u, rfl, run_cons.2 ⟨t, ht, hu⟩, hb⟩
    · exact ⟨[], a, as, s, rfl, rfl, hp⟩

/-- What holds at the start and is kept by every permitted step holds at the
end of every permitted run. -/
theorem run_invariant {I : S → Prop}
    (keep : ∀ s a t, P s a → I s → step s a = some t → I t)
    (h0 : I s) (hp : Along step P s as) (hr : run step s as = some u) : I u := by
  induction as generalizing s with
  | nil => cases hr; exact h0
  | cons a as ih =>
    obtain ⟨t, ht, hr⟩ := run_cons.1 hr
    exact ih (keep s a t hp.1 h0 ht) (hp.2 t ht) hr

/-- The same without a condition on the steps. -/
theorem run_keeps {I : S → Prop} (keep : ∀ s a t, I s → step s a = some t → I t)
    (h0 : I s) (hr : run step s as = some u) : I u := by
  induction as generalizing s with
  | nil => cases hr; exact h0
  | cons a as ih =>
    obtain ⟨t, ht, hr⟩ := run_cons.1 hr
    exact ih (keep s a t h0 ht) hr

/-- An invariant holds before every step. -/
theorem along_keeps {I : S → Prop} (keep : ∀ s a t, I s → step s a = some t → I t) (h0 : I s) :
    Along step (fun s _ => I s) s as := by
  induction as generalizing s with
  | nil => trivial
  | cons a as ih => exact ⟨h0, fun t ht => ih (keep s a t h0 ht)⟩

/-- What holds where `P` happens and is kept from there on holds at the end of a
run in which `P` happens. -/
theorem run_of_sometime {I : S → Prop} (start : ∀ s a, Q s a → P s a → I s)
    (keep : ∀ s a t, Q s a → I s → step s a = some t → I t)
    (hp : Sometime step P s as) (hq : Along step Q s as) (hr : run step s as = some u) : I u := by
  induction as generalizing s with
  | nil => cases hp
  | cons a as ih =>
    obtain ⟨t, ht, hu⟩ := run_cons.1 hr
    rcases hp with hp | ⟨t', ht', hp⟩
    · exact run_invariant keep (start s a hq.1 hp) hq hr
    · rw [ht] at ht'
      cases ht'
      exact ih hp (hq.2 t ht) hu

/-- A run that ends outside `J` has taken no step that leads there for good. -/
theorem along_of_end {J : S → Prop} (start : ∀ s a t, P s a → step s a = some t → Q s a ∨ J t)
    (keep : ∀ s a t, P s a → J s → step s a = some t → J t)
    (hp : Along step P s as) (hr : run step s as = some u) (hend : ¬ J u) : Along step Q s as := by
  induction as generalizing s with
  | nil => trivial
  | cons a as ih =>
    obtain ⟨t, ht, hu⟩ := run_cons.1 hr
    refine ⟨(start s a t hp.1 ht).resolve_right fun hj => ?_, fun t' ht' => ?_⟩
    · exact hend (run_invariant keep hj (hp.2 t ht) hu)
    · rw [ht] at ht'
      cases ht'
      exact ih (hp.2 t ht) hu

/-- An invariant that also speaks of what the steps yielded so far. -/
theorem run_collect {B : Type} {f : S → A → List B} {I : List B → S → Prop}
    (keep : ∀ l s a t, P s a → I l s → step s a = some t → I (l ++ f s a) t) {l : List B}
    (h0 : I l s) (hp : Along step P s as) (hr : run step s as = some u) :
    I (l ++ collect step f s as) u := by
  induction as generalizing s l with
  | nil =>
    cases hr
    simpa [collect] using h0
  | cons a as ih =>
    obtain ⟨t, ht, hr⟩ := run_cons.1 hr
    have := ih (keep l s a t hp.1 h0 ht) (hp.2 t ht) hr
    simpa [collect, ht] using this

end

/-! ### A machine seen through functions -/

section
variable {S A S' A' : Type} {step : S → A → Option S} {step' : S' → A' → Option S'} {f : S → S'}
  {g : A → A'} {s : S} {as : List A}

theorem always_map {I : S' → Prop} (h : ∀ s a, step' (f s) (g a) = (step s a).map f) :
    Always step' I (f s) (as.map g) ↔ Always step (fun s => I (f s)) s as := by
  induction as generalizing s with
  | nil => rfl
  | cons a as ih =>
    refine and_congr Iff.rfl ?_
    rw [h]
    cases step s a with
    | none => simp
    | some t => simpa using ih

theorem along_map {P : S' → A' → Prop} (h : ∀ s a, step' (f s) (g a) = (step s a).map f) :
    Along step' P (f s) (as.map g) ↔ Along step (fun s a => P (f s) (g a)) s as := by
  induction as generalizing s with
  | nil => rfl
  | cons a as ih =>
    refine and_congr Iff.rfl ?_
    rw [h]
    cases step s a with
    | none => simp
    | some t => simpa using ih

end

end Machine
