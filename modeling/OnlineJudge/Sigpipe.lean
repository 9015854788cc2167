import OnlineJudge.Lib.Override

/-!
# The disposition of `SIGPIPE`

`SigpipeGuard` of `runner/process_runner.cpp`. The disposition belongs to the
process, while each guard saves and restores a copy of its own.
-/

namespace OnlineJudge

/-- A mask and flags go with a handler only. -/
inductive Disposition
  | default
  | ignore
  | handler (address : BitVec 64) (mask : BitVec 64) (flags : BitVec 32)
  deriving DecidableEq, Repr

/-- `sigaction` took effect in the constructor, so `valid_` is true. -/
structure SigpipeGuard where
  old : Disposition

namespace SigpipeGuard

/-- The constructor: the guard, and the disposition it leaves. -/
def construct (disposition : Disposition) : SigpipeGuard × Disposition := (⟨disposition⟩, .ignore)

/-- The disposition that the destructor leaves. -/
def destroy (guard : SigpipeGuard) : Disposition := guard.old

end SigpipeGuard

/-- The disposition of the process and the guards alive in its threads, oldest
first. -/
structure SignalState where
  sigpipe : Disposition
  guards : List (Nat × SigpipeGuard) := []

inductive GuardCall
  | construct (guard : Nat)
  | destroy (guard : Nat)

/-- A guard is constructed once. -/
def SignalState.step (s : SignalState) : GuardCall → Option SignalState
  | .construct guard =>
    if guard ∈ s.guards.map Prod.fst then none
    else
      let (new, sigpipe) := SigpipeGuard.construct s.sigpipe
      some { sigpipe, guards := s.guards ++ [(guard, new)] }
  | .destroy guard =>
    (s.guards.find? fun g => g.1 = guard).map fun g =>
      { sigpipe := g.2.destroy, guards := s.guards.eraseP fun g => g.1 = guard }

/-! ## Guards are holders that override the disposition -/

def GuardCall.override : GuardCall → OverrideStep Nat
  | construct guard => .enter guard
  | destroy guard => .leave guard

def SignalState.override (s : SignalState) : Override Disposition Nat :=
  ⟨s.sigpipe, s.guards.map fun g => (g.1, g.2.old)⟩

theorem override_step (s : SignalState) (call : GuardCall) :
    Override.step .ignore s.override call.override = (s.step call).map SignalState.override := by
  cases call with
  | construct guard =>
    have hheld : s.override.held.map Prod.fst = s.guards.map Prod.fst := by
      simp [SignalState.override, Function.comp_def]
    simp only [GuardCall.override, Override.step, Override.enter, SignalState.step, hheld]
    split
    · rfl
    · simp [SignalState.override, SigpipeGuard.construct]
  | destroy guard =>
    simp only [GuardCall.override, Override.step, Override.leave, SignalState.step,
      SignalState.override, List.find?_map, List.eraseP_map, Option.map_map]
    rfl

/-- While a guard is alive the signal is ignored, and otherwise handled as before
the first. -/
def SignalState.Composed (before : Disposition) (s : SignalState) : Prop :=
  (s.guards ≠ [] → s.sigpipe = .ignore) ∧ (s.guards = [] → s.sigpipe = before)

/-- The oldest guard alive is destroyed while there are others. -/
def SignalState.OldestFirst (s : SignalState) : GuardCall → Prop
  | .construct _ => False
  | .destroy guard => ∃ old other others, s.guards = (guard, old) :: other :: others

theorem override_intact {before : Disposition} {s : SignalState} :
    s.override.Intact .ignore before ↔ s.Composed before := by
  simp [Override.Intact, SignalState.Composed, SignalState.override]

theorem override_early {s : SignalState} {call : GuardCall} :
    s.override.Early call.override ↔ s.OldestFirst call := by
  cases call with
  | construct guard => rfl
  | destroy guard =>
    rcases s with ⟨sigpipe, _ | ⟨first, _ | ⟨second, guards⟩⟩⟩ <;>
      simp [GuardCall.override, Override.Early, SignalState.OldestFirst, SignalState.override,
        Prod.ext_iff]

/-- Whatever the order in which guards are constructed and destroyed, they
compose iff the signal was ignored from the start, or the oldest guard alive is
never destroyed before the others. -/
theorem sigpipe_guards_compose_iff (before : Disposition) (calls : List GuardCall) :
    Machine.Always SignalState.step (fun s => s.Composed before) ⟨before, []⟩ calls ↔
      before = .ignore ∨
        Machine.Along SignalState.step (fun s call => ¬ s.OldestFirst call) ⟨before, []⟩ calls := by
  have halways := @Machine.always_map _ _ _ _ _ _ _ _ (⟨before, []⟩ : SignalState) calls
    (Override.Intact .ignore before) override_step
  have hearly := @Machine.along_map _ _ _ _ _ _ _ _ (⟨before, []⟩ : SignalState) calls
    (fun s a => ¬ Override.Early s a) override_step
  simp only [override_intact, override_early] at halways hearly
  rw [← halways, ← hearly]
  exact Override.always_intact_iff

/-- Two threads in `runNext`: the first to start returns while the other still
writes, and `SIGPIPE` is no longer ignored. -/
theorem sigpipe_guards_cross :
    ¬ ∀ (before : Disposition) (calls : List GuardCall),
      Machine.Always SignalState.step (fun s => s.Composed before) ⟨before, []⟩ calls := by
  intro h
  have hall := h .default [.construct 0, .construct 1, .destroy 0, .destroy 1]
  have hcrossed : SignalState.Composed .default ⟨.default, [(1, ⟨.ignore⟩)]⟩ :=
    (((hall.2 _ rfl).2 _ rfl).2 _ rfl).head
  exact absurd (hcrossed.1 (by simp)) (by decide)

end OnlineJudge
