import Mathlib.Tactic.Common

/-!
# One-way channels

A first-in first-out channel with one reader. It keeps what the reader has
taken, so what was ever put in (`sent`) is `taken ++ pending` by definition and
no operation can lose, repeat or reorder an item.
-/

/-- Items taken by the reader and items still waiting, oldest first. -/
structure Channel (α : Type) where
  taken : List α
  pending : List α
  deriving DecidableEq, Repr

namespace Channel

variable {α : Type}

def empty : Channel α := ⟨[], []⟩

/-- Everything ever put into the channel, in order. -/
def sent (c : Channel α) : List α := c.taken ++ c.pending

def put (c : Channel α) (xs : List α) : Channel α := { c with pending := c.pending ++ xs }

/-- The reader takes the `n` oldest waiting items. -/
def take (c : Channel α) (n : Nat) : Channel α :=
  ⟨c.taken ++ c.pending.take n, c.pending.drop n⟩

variable (c : Channel α) (xs : List α) (n : Nat)

@[simp, grind =] theorem sent_empty : (empty : Channel α).sent = [] := rfl
@[simp, grind =] theorem pending_empty : (empty : Channel α).pending = [] := rfl
@[simp, grind =] theorem taken_empty : (empty : Channel α).taken = [] := rfl

@[simp, grind =] theorem sent_put : (c.put xs).sent = c.sent ++ xs := by
  simp [sent, put]

@[simp, grind =] theorem sent_take : (c.take n).sent = c.sent := by
  simp [sent, take, List.append_assoc]

@[simp, grind =] theorem taken_put : (c.put xs).taken = c.taken := rfl

@[simp, grind =] theorem pending_put : (c.put xs).pending = c.pending ++ xs := rfl

@[simp, grind =] theorem pending_take : (c.take n).pending = c.pending.drop n := rfl

@[simp, grind =] theorem taken_take : (c.take n).taken = c.taken ++ c.pending.take n := rfl

/-- The reader has seen everything exactly when nothing waits. -/
theorem taken_eq_sent_iff : c.taken = c.sent ↔ c.pending = [] := by
  simp [sent]

end Channel
