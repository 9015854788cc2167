import Mathlib.Data.List.Chain
import Mathlib.Data.List.Induction
import Mathlib.Data.List.Nodup

/-!
# Milestones

A log of what was achieved, in the order in which it was. `requires` says what has
to be achieved before a milestone, and `excludes` what must not be.

* `Ordered`: nothing is achieved twice, and each milestone in its time;
* `Ordered.before`: the same, read off a place in the log;
* `Ordered.prefix_of_chain`: where each milestone of a list requires the one
  before it, those of the list are achieved in the order of the list.
-/

namespace Milestones

variable {M : Type} {requires excludes : M → List M} {log : List M}

inductive Ordered (requires excludes : M → List M) : List M → Prop
  | nil : Ordered requires excludes []
  | snoc {log m} (h : Ordered requires excludes log) (hnew : m ∉ log)
    (hreq : ∀ p ∈ requires m, p ∈ log) (hexc : ∀ p ∈ excludes m, p ∉ log) :
    Ordered requires excludes (log ++ [m])

namespace Ordered

/-- Several at once, all of them new and possible. -/
theorem append (h : Ordered requires excludes log) {ms : List M}
    (hms : ms.Pairwise fun p m => p ≠ m ∧ p ∉ excludes m) (hnew : ∀ m ∈ ms, m ∉ log)
    (hreq : ∀ m ∈ ms, ∀ p ∈ requires m, p ∈ log) (hexc : ∀ m ∈ ms, ∀ p ∈ excludes m, p ∉ log) :
    Ordered requires excludes (log ++ ms) := by
  induction ms using List.reverseRecOn with
  | nil => simpa using h
  | append_singleton ms m ih =>
    obtain ⟨hpairs, -, hlast⟩ := List.pairwise_append.1 hms
    have hin {p : M} (hp : p ∈ ms) : p ∈ ms ++ [m] := List.mem_append_left _ hp
    have hrest := ih hpairs (fun p hp => hnew p (hin hp)) (fun p hp => hreq p (hin hp))
      (fun p hp => hexc p (hin hp))
    have hm : m ∈ ms ++ [m] := List.mem_append_right _ (List.mem_singleton.2 rfl)
    rw [← List.append_assoc]
    refine hrest.snoc ?_ (fun p hp => List.mem_append_left _ (hreq m hm p hp)) ?_
    · intro hmem
      rcases List.mem_append.1 hmem with hold | hbefore
      · exact hnew m hm hold
      · exact (hlast m hbefore m (List.mem_singleton.2 rfl)).1 rfl
    · intro p hp hmem
      rcases List.mem_append.1 hmem with hold | hbefore
      · exact hexc m hm p hp hold
      · exact (hlast p hbefore m (List.mem_singleton.2 rfl)).2 hp

theorem nodup (h : Ordered requires excludes log) : log.Nodup := by
  induction h with
  | nil => exact List.nodup_nil
  | snoc _ hnew _ _ ih =>
    rw [List.nodup_append]
    refine ⟨ih, List.nodup_singleton _, ?_⟩
    rintro p hp m hm rfl
    rw [List.mem_singleton.1 hm] at hp
    exact hnew hp

/-- At each place of the log, what stands there is new, what it requires stands
before it, and nothing that it excludes does. -/
theorem before (h : Ordered requires excludes log) {before after : List M} {m : M}
    (hlog : log = before ++ m :: after) :
    m ∉ before ∧ (∀ p ∈ requires m, p ∈ before) ∧ ∀ p ∈ excludes m, p ∉ before := by
  induction h generalizing before after with
  | nil => simp at hlog
  | @snoc log n _ hnew hreq hexc ih =>
    rcases List.eq_nil_or_concat after with rfl | ⟨rest, last, rfl⟩
    · obtain ⟨rfl, hm⟩ := List.append_inj' hlog rfl
      cases hm
      exact ⟨hnew, hreq, hexc⟩
    · rw [List.concat_eq_append, ← List.cons_append, ← List.append_assoc] at hlog
      exact ih (List.append_inj' hlog rfl).1

/-- Where each milestone of `chain` requires the one that stands before it, they
are achieved in the order of `chain`. -/
theorem prefix_of_chain [DecidableEq M] {chain : List M} (hnodup : chain.Nodup)
    (hchain : chain.IsChain fun p m => p ∈ requires m)
    (h : Ordered requires excludes log) : log.filter (· ∈ chain) <+: chain := by
  induction h with
  | nil => exact List.nil_prefix
  | @snoc log m _ hnew hreq _ ih =>
    by_cases hm : m ∈ chain
    · have hlog : (log ++ [m]).filter (· ∈ chain) = log.filter (· ∈ chain) ++ [m] := by
        simp [List.filter_append, hm]
      have hdone {p : M} : p ∈ log.filter (· ∈ chain) ↔ p ∈ log ∧ p ∈ chain := by simp
      rw [hlog]
      generalize log.filter (· ∈ chain) = done at ih hdone ⊢
      obtain ⟨rest, hrest⟩ := ih
      have hin : m ∈ rest := by
        refine (List.mem_append.1 (hrest.symm ▸ hm)).resolve_left fun hmem => ?_
        exact hnew (hdone.1 hmem).1
      obtain ⟨mid, after, rfl⟩ := List.append_of_mem hin
      rcases List.eq_nil_or_concat mid with rfl | ⟨mid, p, rfl⟩
      · exact ⟨after, by simpa using hrest⟩
      · -- what stands right before `m` was achieved, and cannot stand there again
        rw [List.concat_eq_append] at hrest
        have hp : p ∈ requires m := by
          rw [← hrest, ← List.append_assoc, ← List.append_assoc, List.append_assoc _ [p]] at hchain
          exact (List.isChain_append_cons_cons.1 hchain).2.1
        have hmem : p ∈ done := hdone.2 ⟨hreq p hp, by simp [← hrest]⟩
        rw [← hrest] at hnodup
        exact absurd rfl ((List.nodup_append.1 hnodup).2.2 p hmem p (by simp))
    · simpa [List.filter_append, hm] using ih

end Ordered
end Milestones
