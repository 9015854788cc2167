import OnlineJudge.Lib.Machine

/-!
# Costs and ranks

What the steps of a run cost together, and how far a run can be from a goal.

* `tally`: the costs of the steps of a run, added up;
* `tally_le`: each step pays its cost out of a potential and of what it is
  given, so a run costs no more than it had and was given;
* `run_to_goal`: as long as some permitted step lowers the rank, permitted steps
  lead to the goal, no more of them than the rank.
-/

namespace Machine

section
variable {S A : Type} (step : S → A → Option S)

/-- The costs of the steps that the run from `s` takes. -/
def tally (cost : S → A → Nat) : S → List A → Nat
  | _, [] => 0
  | s, a :: as => (step s a).elim 0 fun t => cost s a + tally cost t as

variable {step} {s t : S} {a : A} {as : List A} {cost : S → A → Nat}

theorem tally_cons (h : step s a = some t) :
    tally step cost s (a :: as) = cost s a + tally step cost t as := by
  simp only [tally, h, Option.elim_some]

theorem tally_stuck (h : step s a = none) : tally step cost s (a :: as) = 0 := by
  simp only [tally, h, Option.elim_none]

theorem tally_mul (n : Nat) :
    tally step (fun s a => n * cost s a) s as = n * tally step cost s as := by
  induction as generalizing s with
  | nil => rfl
  | cons a as ih =>
    cases h : step s a with
    | none => simp only [tally_stuck h, Nat.mul_zero]
    | some t => rw [tally_cons h, tally_cons h, ih, Nat.mul_add]

/-- Where every step pays its cost out of the potential and an income, a run
costs no more than the potential it starts with and its income. -/
theorem tally_le {I : S → Prop} {potential : S → Nat} {income : S → A → Nat}
    (keep : ∀ s a t, I s → step s a = some t → I t)
    (pay : ∀ s a t, I s → step s a = some t → cost s a + potential t ≤ potential s + income s a)
    (h0 : I s) : tally step cost s as ≤ potential s + tally step income s as := by
  induction as generalizing s with
  | nil => exact Nat.zero_le _
  | cons a as ih =>
    cases h : step s a with
    | none =>
      rw [tally_stuck h]
      exact Nat.zero_le _
    | some t =>
      have hpay := pay s a t h0 h
      have hrest := ih (keep s a t h0 h)
      rw [tally_cons h, tally_cons h]
      omega

/-- A state short of the goal from which some permitted step lowers the rank is
no dead end: permitted steps, at most as many as the rank, lead to the goal. -/
theorem run_to_goal {I goal : S → Prop} {permitted : A → Prop} {rank : S → Nat}
    (descend : ∀ s, I s → ¬ goal s →
      ∃ a t, permitted a ∧ step s a = some t ∧ I t ∧ rank t < rank s)
    (h0 : I s) :
    ∃ as u, run step s as = some u ∧ goal u ∧ (∀ a ∈ as, permitted a) ∧
      as.length ≤ rank s := by
  induction hn : rank s using Nat.strongRecOn generalizing s with
  | ind n ih =>
    by_cases hg : goal s
    · refine ⟨[], s, rfl, hg, ?_, Nat.zero_le n⟩
      intro a ha
      cases ha
    · obtain ⟨a, t, ha, ht, hi, hlt⟩ := descend s h0 hg
      obtain ⟨as, u, hu, hgoal, hall, hlen⟩ := ih (rank t) (hn ▸ hlt) hi rfl
      refine ⟨a :: as, u, run_cons.2 ⟨t, ht, hu⟩, hgoal, ?_, ?_⟩
      · intro b hb
        rcases List.mem_cons.1 hb with rfl | hb
        · exact ha
        · exact hall b hb
      · rw [List.length_cons]
        omega

end

end Machine
