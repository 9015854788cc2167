import OnlineJudge.Eviction

/-!
# `createExecutionProcess`

Two pipes, two `fcntl`s, the fork, the attachment and the release byte: each can
fail, and takes back what the others have done. This module lists what the
supervisor does to the four ends of the two pipes, and what the function returns.
-/

namespace OnlineJudge

variable {q : Request} {acts : List Act} {w w' : World} {x : Answer} {a : Act}

/-! ## The ends of the pipes -/

/-- `sync0` is `sync_pipe[0]`, and so on. -/
inductive PipeEnd
  | sync0 | sync1 | status0 | status1
  deriving DecidableEq

namespace PipeEnd

/-- The call that creates it, by its number. -/
def creation : PipeEnd → Nat
  | sync0 | sync1 => 0
  | status0 | status1 => 1

def all : List PipeEnd := [sync0, sync1, status0, status1]

/-- What the supervisor keeps after the fork. -/
def kept : PipeEnd → Bool
  | sync1 | status0 => true
  | sync0 | status1 => false

end PipeEnd

open PipeEnd

/-- `SandboxProcess`, with the descriptor by its name: `none` is -1. -/
structure SandboxProcess where
  host_pid : Int := -1
  namespace_pid : Int := 1
  status_fd : Option PipeEnd := none
  deriving DecidableEq

namespace Supervisor

/-- The ends that a call of `createExecutionProcess` creates. -/
def endsCreated (w : World) (x : Answer) : List PipeEnd :=
  match w.sup.pc with
  | .createPipes n => if x = .ok then all.filter (·.creation = n) else []
  | _ => []

/-- The ends that it uses: `fcntl` on `status_pipe[1]`, `write` on
`sync_pipe[1]`. -/
def endsUsed (w : World) : List PipeEnd :=
  match w.sup.pc with
  | .createPipes n => if 2 ≤ n then [status1] else []
  | .release => [sync1]
  | _ => []

/-- The ends that it closes before the next call, or before it returns. -/
def endsClosed (w : World) (x : Answer) : List PipeEnd :=
  match w.sup.pc with
  | .createPipes n => if x matches .fail _ then all.filter (·.creation < n) else []
  | .fork => if x matches .fail _ then all else [sync0, status1]
  | .release => if x = .ok && w.childA.alive then [sync1] else []
  -- the end of `cleanup_failed_child`
  | .waitKilledChild => if x = .fail EINTR then [] else [sync1, status0]
  | _ => []

/-- What `createExecutionProcess` returns in this call, when it does. -/
def created (w : World) (x : Answer) : Option SandboxProcess :=
  match w.sup.pc with
  | .createPipes _ | .fork => if x matches .fail _ then some {} else none
  | .release =>
    if x = .ok && w.childA.alive then
      some { host_pid := w.sup.host_pid.toInt, status_fd := some status0 }
    else none
  | .waitKilledChild => if x = .fail EINTR then none else some {}
  | _ => none

end Supervisor

/-- What a step does to an end in the supervisor, up to the return of
`createExecutionProcess`. -/
def endHandlings (d : PipeEnd) (w : World) : Act → List Handling
  | .supervisor x =>
    List.replicate ((Supervisor.endsCreated w x).count d) .acquired ++
      List.replicate ((Supervisor.endsUsed w).count d) .used ++
      List.replicate ((Supervisor.endsClosed w x).count d) .released
  | _ => []

/-- The lifetime of an end between two calls, while `createExecutionProcess`
runs or is to be called. -/
def SupervisorPc.endLifetime (d : PipeEnd) : SupervisorPc → Option Lifetime
  | unborn | mkdirCgroup | mkdtemp => some .unborn
  | createPipes n => some (if d.creation < n then .held else .unborn)
  | fork => some .held
  | openProcs | writeProcs | release | killChild | waitKilledChild => some (.ofOpen d.kept)
  | _ => none

/-- How many calls `createExecutionProcess` makes at most until it returns, those
that are interrupted apart. -/
def SupervisorPc.callsLeft : SupervisorPc → Nat
  | createPipes n => 7 + (4 - n)
  | fork => 6
  | openProcs => 5
  | writeProcs => 4
  | release => 3
  | killChild => 2
  | waitKilledChild => 1
  | _ => 0

namespace Supervisor

/-- A call leaves an end in this lifetime, and it is the one that is returned if
it is open at the return. -/
structure Leaves (d : PipeEnd) (w : World) (x : Answer) (pc : SupervisorPc) (stage : Lifetime) :
    Prop where
  next : pc.endLifetime d = some stage ∨ pc.endLifetime d = none
  returned : ∀ process, created w x = some process →
    (stage = .held ↔ process.status_fd = some d)

/-- A `createExecutionProcess` that returned no process is over. -/
theorem no_way_back {d : PipeEnd} (s : Supervisor) :
    (s.cleanupCgroup .noProcess).pc.endLifetime d = none := by
  unfold cleanupCgroup
  split <;> rfl

theorem ends_step {d : PipeEnd} {stage : Lifetime} (hs : w.sup.pc.endLifetime d = some stage)
    (ht : Supervisor.step w x = some w') :
    ∃ stage', Machine.run Lifetime.step stage (endHandlings d w (.supervisor x)) = some stage' ∧
      Leaves d w x w'.sup.pc stage' := by
  -- a call that neither touches the pipes nor returns
  have quiet (hh : endHandlings d w (.supervisor x) = []) (hc : created w x = none)
      (hn : w'.sup.pc.endLifetime d = some stage ∨ w'.sup.pc.endLifetime d = none) :
      ∃ stage', Machine.run Lifetime.step stage (endHandlings d w (.supervisor x)) = some stage' ∧
        Leaves d w x w'.sup.pc stage' :=
    ⟨stage, by rw [hh]; rfl, hn, by simp [hc]⟩
  cases hpc : w.sup.pc with
  | mkdirCgroup =>
    rw [hpc] at hs
    cases hs
    refine quiet (by simp [endHandlings, endsCreated, endsUsed, endsClosed, hpc])
      (by simp [created, hpc]) ?_
    simp only [Supervisor.step, hpc] at ht
    cases x <;> simp only [Supervisor.mkdirCgroup, reduceCtorEq] at ht
    · cases ht
      exact .inl rfl
    · split at ht
      · cases ht
        exact .inr rfl
      · split at ht <;> cases ht
        · exact .inl rfl
        · exact .inr rfl
  | mkdtemp =>
    rw [hpc] at hs
    cases hs
    refine quiet (by simp [endHandlings, endsCreated, endsUsed, endsClosed, hpc])
      (by simp [created, hpc]) ?_
    simp only [Supervisor.step, hpc] at ht
    cases x <;> simp only [reduceCtorEq] at ht <;> cases ht
    · exact .inl (by simp [SupervisorPc.endLifetime, Supervisor.go])
    · exact .inr rfl
  | createPipes n =>
    rw [hpc] at hs
    cases hs
    simp only [Supervisor.step, hpc] at ht
    cases x <;> simp only [reduceCtorEq] at ht <;> cases ht
    · refine ⟨if d.creation < n + 1 then .held else .unborn, ?_, .inl ?_, by simp [created, hpc]⟩
      · rcases n with _ | _ | n <;> cases d <;>
          simp [endHandlings, endsCreated, endsUsed, endsClosed, hpc, PipeEnd.creation,
            PipeEnd.all, Machine.run, Lifetime.step]
      · simp only [Supervisor.go]
        split
        · rfl
        · rename_i hn
          have hd : d.creation < n + 1 := by cases d <;> simp only [PipeEnd.creation] <;> omega
          simp [SupervisorPc.endLifetime, hd]
    · refine ⟨if d.creation < n then .ended else .unborn, ?_, .inr (no_way_back _), ?_⟩
      · rcases n with _ | _ | n <;> cases d <;>
          simp [endHandlings, endsCreated, endsUsed, endsClosed, hpc, PipeEnd.creation,
            PipeEnd.all, Machine.run, Lifetime.step]
      · simp only [created, hpc, Option.some.injEq, if_true]
        rintro _ rfl
        split <;> simp
  | fork =>
    rw [hpc] at hs
    cases hs
    simp only [Supervisor.step, hpc] at ht
    cases x <;> simp only [reduceCtorEq] at ht
    · cases ht
      refine ⟨.ended, ?_, .inr (no_way_back _), by simp [created, hpc]⟩
      cases d <;> simp [endHandlings, endsCreated, endsUsed, endsClosed, hpc, PipeEnd.all,
        Machine.run, Lifetime.step]
    · split at ht <;> cases ht
      refine ⟨.ofOpen d.kept, ?_, .inl ?_, by simp [created, hpc]⟩
      · cases d <;> simp [endHandlings, endsCreated, endsUsed, endsClosed, hpc, PipeEnd.kept,
          Lifetime.ofOpen, Machine.run, Lifetime.step]
      · simp only
        split <;> rfl
  | openProcs =>
    rw [hpc] at hs
    cases hs
    refine quiet (by simp [endHandlings, endsCreated, endsUsed, endsClosed, hpc])
      (by simp [created, hpc]) (.inl ?_)
    simp only [Supervisor.step, hpc] at ht
    cases x <;> simp only [Supervisor.openProcs, reduceCtorEq] at ht
    · cases ht
      split <;> rfl
    · split at ht <;> cases ht <;> rfl
  | writeProcs =>
    rw [hpc] at hs
    cases hs
    refine quiet (by simp [endHandlings, endsCreated, endsUsed, endsClosed, hpc])
      (by simp [created, hpc]) (.inl ?_)
    simp only [Supervisor.step, hpc] at ht
    cases x <;> simp only [Supervisor.writeProcs, reduceCtorEq] at ht
    · split at ht <;> cases ht <;> rfl
    · split at ht <;> cases ht <;> rfl
  | release =>
    rw [hpc] at hs
    cases hs
    simp only [Supervisor.step, hpc] at ht
    cases x <;> simp only [reduceCtorEq] at ht
    · split at ht <;> cases ht
      · rename_i ha
        refine ⟨if d = status0 then .held else .ended, ?_, .inr ?_, ?_⟩
        · cases d <;> simp [endHandlings, endsCreated, endsUsed, endsClosed, hpc, ha,
            PipeEnd.kept, Lifetime.ofOpen, Machine.run, Lifetime.step]
        · rfl
        · simp only [created, hpc, ha, decide_true, Bool.and_true, if_true, Option.some.injEq]
          rintro _ rfl
          cases d <;> simp
      · rename_i ha
        refine ⟨.ofOpen d.kept, ?_, .inl rfl, by simp [created, hpc, ha]⟩
        cases d <;> simp [endHandlings, endsCreated, endsUsed, endsClosed, hpc, ha, PipeEnd.kept,
          Lifetime.ofOpen, Machine.run, Lifetime.step]
    · refine ⟨.ofOpen d.kept, ?_, .inl ?_, by simp [created, hpc]⟩
      · cases d <;> simp [endHandlings, endsCreated, endsUsed, endsClosed, hpc, PipeEnd.kept,
          Lifetime.ofOpen, Machine.run, Lifetime.step]
      · split at ht <;> cases ht
        · rw [hpc]
          rfl
        · rfl
  | killChild =>
    rw [hpc] at hs
    cases hs
    refine quiet (by simp [endHandlings, endsCreated, endsUsed, endsClosed, hpc])
      (by simp [created, hpc]) (.inl ?_)
    simp only [Supervisor.step, hpc] at ht
    cases x <;> simp only [Supervisor.killA, reduceCtorEq] at ht <;> cases ht <;> rfl
  | waitKilledChild =>
    rw [hpc] at hs
    cases hs
    by_cases hx : x = .fail EINTR
    · refine quiet (by simp [endHandlings, endsCreated, endsUsed, endsClosed, hpc, hx])
        (by simp [created, hpc, hx]) (.inl ?_)
      subst hx
      simp only [Supervisor.step, hpc, Supervisor.waitA, if_true, Option.some.injEq] at ht
      rw [← ht, hpc]
      rfl
    · refine ⟨.ended, ?_, .inr ?_, by simp [created, hpc, hx]⟩
      · cases d <;> simp [endHandlings, endsCreated, endsUsed, endsClosed, hpc, hx, PipeEnd.kept,
          Lifetime.ofOpen, Machine.run, Lifetime.step]
      · simp only [Supervisor.step, hpc] at ht
        cases x <;> simp only [Supervisor.waitA, reduceCtorEq] at ht
        · rename_i e
          have he : e ≠ EINTR := by
            rintro rfl
            exact hx rfl
          rw [if_neg he] at ht
          cases ht
          exact no_way_back _
        · split at ht
          · split at ht <;> cases ht <;> exact no_way_back _
          · cases ht
  | unborn => simp [Supervisor.step, hpc] at ht
  | _ => simp [hpc, SupervisorPc.endLifetime] at hs

/-- A call that does not return is interrupted, or one less is left. -/
theorem callsLeft_step (hin : w.sup.pc.callsLeft ≠ 0) (hret : created w x = none)
    (ht : Supervisor.step w x = some w') :
    x = .fail EINTR ∧ w' = w ∨
      0 < w'.sup.pc.callsLeft ∧ w'.sup.pc.callsLeft < w.sup.pc.callsLeft := by
  cases hpc : w.sup.pc with
  | createPipes n =>
    simp only [Supervisor.step, hpc] at ht
    cases x <;> simp only [reduceCtorEq] at ht <;> cases ht
    · refine .inr ?_
      simp only [Supervisor.go]
      split <;> simp only [SupervisorPc.callsLeft] <;> omega
    · simp [created, hpc] at hret
  | fork =>
    simp only [Supervisor.step, hpc] at ht
    cases x <;> simp only [reduceCtorEq] at ht
    · simp [created, hpc] at hret
    · split at ht <;> cases ht
      refine .inr ?_
      simp only
      split <;> simp [SupervisorPc.callsLeft]
  | openProcs =>
    simp only [Supervisor.step, hpc] at ht
    cases x <;> simp only [Supervisor.openProcs, reduceCtorEq] at ht
    · cases ht
      refine .inr ?_
      simp only [Supervisor.go]
      split <;> simp [SupervisorPc.callsLeft]
    · split at ht <;> cases ht <;> exact .inr (by simp [SupervisorPc.callsLeft, Supervisor.go])
  | writeProcs =>
    simp only [Supervisor.step, hpc] at ht
    cases x <;> simp only [Supervisor.writeProcs, reduceCtorEq] at ht
    · split at ht <;> cases ht <;> exact .inr (by simp [SupervisorPc.callsLeft, Supervisor.go])
    · split at ht <;> cases ht <;> exact .inr (by simp [SupervisorPc.callsLeft, Supervisor.go])
  | release =>
    simp only [Supervisor.step, hpc] at ht
    cases x <;> simp only [reduceCtorEq] at ht
    · split at ht <;> cases ht
      · rename_i ha
        simp [created, hpc, ha] at hret
      · exact .inr (by simp [SupervisorPc.callsLeft, Supervisor.go])
    · split at ht <;> cases ht
      · rename_i he
        exact .inl ⟨by rw [he], rfl⟩
      · exact .inr (by simp [SupervisorPc.callsLeft, Supervisor.go])
  | killChild =>
    simp only [Supervisor.step, hpc] at ht
    cases x <;> simp only [Supervisor.killA, reduceCtorEq] at ht <;> cases ht <;>
      exact .inr (by simp [SupervisorPc.callsLeft, Supervisor.go])
  | waitKilledChild =>
    have hx : x = .fail EINTR := by simpa [created, hpc] using hret
    subst hx
    simp only [Supervisor.step, hpc, Supervisor.waitA, if_true, Option.some.injEq] at ht
    exact .inl ⟨rfl, ht.symm⟩
  | _ => simp [hpc, SupervisorPc.callsLeft] at hin

/-- Outside of `createExecutionProcess` nothing is done to the ends, and there is
no way back. -/
theorem ends_apart {d : PipeEnd} (hs : w.sup.pc.endLifetime d = none) (hm : Move w x w') :
    endHandlings d w (.supervisor x) = [] ∧ w'.sup.pc.endLifetime d = none := by
  refine ⟨?_, ?_⟩
  · cases hpc : w.sup.pc <;> simp [hpc, SupervisorPc.endLifetime] at hs <;>
      simp [endHandlings, endsCreated, endsUsed, endsClosed, hpc]
  · cases hm with
    | gotControl =>
      rcases w.sup.handleControl_cases
        (.ofBytes (w.toSup.pending.take headerSize)) with he | he | he | he <;>
        grind -linarith [SupervisorPc.endLifetime]
    | @gotStatus r => cases r <;> grind -linarith [SupervisorPc.endLifetime]
    | waitedA site | waitAFailed site =>
      cases site <;> grind -linarith [SupervisorPc.endLifetime]
    | @sent caller | @sendFailed _ caller | @openedKill caller | @killWritten caller
    | @killDenied _ caller | @killFailed _ caller | @removed caller | @removeBusy caller
    | @removeDenied caller | @removeFailed caller =>
      cases caller <;> grind -linarith [SupervisorPc.endLifetime]
    | _ => grind -linarith [SupervisorPc.endLifetime]

end Supervisor

/-- The lifetime of an end goes with where the supervisor is. -/
def EndIn (d : PipeEnd) (w : World) (stage : Lifetime) : Prop :=
  ∀ s, w.sup.pc.endLifetime d = some s → s = stage

theorem ends_follow {d : PipeEnd} {stage : Lifetime} (hl : Lineage w) (hi : EndIn d w stage)
    (ht : step w a = some w') :
    ∃ stage', Machine.run Lifetime.step stage (endHandlings d w a) = some stage' ∧
      EndIn d w' stage' := by
  have quiet (hh : endHandlings d w a = [])
      (hn : w'.sup.pc.endLifetime d = w.sup.pc.endLifetime d ∨ w'.sup.pc.endLifetime d = none) :
      ∃ stage', Machine.run Lifetime.step stage (endHandlings d w a) = some stage' ∧
        EndIn d w' stage' := by
    refine ⟨stage, by rw [hh]; rfl, fun s hs => ?_⟩
    rcases hn with hn | hn
    · exact hi s (hn ▸ hs)
    · rw [hn] at hs
      cases hs
  have hm := moves_step ht
  cases hm with
  | supervisor hm =>
    cases hs : w.sup.pc.endLifetime d with
    | none =>
      obtain ⟨hh, hn⟩ := Supervisor.ends_apart hs hm
      exact quiet hh (.inr hn)
    | some s =>
      cases hi s hs
      obtain ⟨stage', hr, hnext, -⟩ := Supervisor.ends_step hs ht
      refine ⟨stage', hr, fun s' hs' => ?_⟩
      rcases hnext with hn | hn <;> rw [hn] at hs' <;> cases hs'
      rfl
  | runner hm =>
    rcases hm.sup with hs | ⟨hpc, -, hs⟩
    · exact quiet rfl (.inl (by rw [hs]))
    · exact quiet rfl (.inl (by rw [hs, hl.unforked hpc]; rfl))
  | childA hm => exact quiet rfl (.inl (by rw [hm.sup]))
  | childB hm => exact quiet rfl (.inl (by rw [hm.sup]))
  | diedSupervisor => exact quiet rfl (.inr rfl)
  | _ => exact quiet rfl (.inl rfl)

/-! ## The child -/

/-- Child A is not past the read from the sync pipe. -/
def ChildA.beforeSync : ChildA → Bool
  | unborn | awaitRelease | exited _ => true
  | _ => false

theorem Move.released_mono (hm : Move w a w') (h : w.released = true) : w'.released = true := by
  cases hm with
  | runner hm => rwa [hm.released]
  | supervisor hm => cases hm <;> first | exact h | rfl
  | childA hm => rwa [hm.released_eq]
  | childB hm => rwa [hm.released]
  | _ => exact h

/-- A child that is not released in the end never got past its read. -/
theorem always_beforeSync (hl : Lineage w) (hr : Machine.run step w acts = some w')
    (h : w'.released = false) :
    Machine.Always step (fun s => s.childA.beforeSync = true) w acts := by
  have hheld (s : World) (hs : Lineage s) (hf : s.released = false) :
      s.childA.beforeSync = true := by
    rcases (hs.waiting hf).1 with hA | hA | ⟨n, hA⟩ <;> rw [hA] <;> rfl
  have hback (s : World) (bs : List Act) (hr : Machine.run step s bs = some w') :
      s.released = false := by
    by_contra hn
    have := Machine.run_keeps (I := fun t => t.released = true)
      (fun _ _ _ hs ht => (moves_step ht).released_mono hs) (by simpa using hn) hr
    simp [h] at this
  induction acts generalizing w with
  | nil => exact hheld w hl (hback w [] hr)
  | cons b bs ih =>
    obtain ⟨t, ht, hrest⟩ := Machine.run_cons.1 hr
    refine ⟨hheld w hl (hback w _ hr), fun t' ht' => ?_⟩
    rw [ht] at ht'
    cases ht'
    exact ih (hl.keep (moves_step ht)) hrest

/-- From the fork to the return `host_pid` is the process id of Child A. -/
def Numbered (w : World) : Prop :=
  w.sup.pc.phase = .attaching → 0 < w.sup.host_pid.toInt

theorem toInt_ofNat_pos {pid : Nat} (h : 0 < pid ∧ pid < 2 ^ 31) :
    0 < (BitVec.ofNat 32 pid).toInt := by
  rw [BitVec.toInt_eq_toNat_of_lt (by simp; omega)]
  simp
  omega

theorem Numbered.keep (h : Numbered w) (hm : Move w a w') : Numbered w' := by
  unfold Numbered at *
  cases hm with
  | runner hm =>
    rcases hm.sup with hs | ⟨-, -, hs⟩
    · rwa [hs]
    · rw [hs]
      rintro ⟨⟩
  | supervisor hm =>
    cases hm with
    | forked _ hpid => exact fun _ => toInt_ofNat_pos hpid
    | gotControl =>
      rcases w.sup.handleControl_cases
        (.ofBytes (w.toSup.pending.take headerSize)) with he | he | he | he <;> grind -linarith
    | @gotStatus r => cases r <;> grind -linarith
    | waitedA site | waitAFailed site => cases site <;> grind -linarith
    | @sent caller | @sendFailed _ caller | @openedKill caller | @killWritten caller
    | @killDenied _ caller | @killFailed _ caller | @removed caller | @removeBusy caller
    | @removeDenied caller | @removeFailed caller =>
      cases caller <;> grind -linarith
    | _ => grind -linarith
  | childA hm => rwa [hm.sup]
  | childB hm => rwa [hm.sup]
  | diedSupervisor => rintro ⟨⟩
  | _ => exact h

theorem Numbered.reach (h : Runs q acts w) : Numbered w :=
  Machine.run_keeps (fun _ _ _ hn ht => hn.keep (moves_step ht))
    (by simp [Numbered, World.init, SupervisorPc.phase]) h

/-! ## All or nothing -/

/-- At the return an end is open if and only if it is the one that is returned. -/
theorem ends_at_return {process : SandboxProcess} (h : Runs q acts w)
    (ht : step w (.supervisor x) = some w') (hret : Supervisor.created w x = some process)
    (d : PipeEnd) :
    ∃ stage, Lifetime.after (Machine.collect step (endHandlings d) (.init q)
        (acts ++ [Act.supervisor x])) = some stage ∧
      (stage = .held ↔ process.status_fd = some d) := by
  obtain ⟨stage, hafter, hin⟩ := Lifetime.exists_after_collect (I := EndIn d) (endHandlings d)
    (fun _ _ _ _ hl hi ht => ends_follow hl hi ht)
    (by rintro s hs; cases hs; rfl)
    (Machine.along_keeps (fun _ _ _ hl ht => hl.keep (moves_step ht)) (Lineage.init q)) h
  obtain ⟨s, hs⟩ : ∃ s, w.sup.pc.endLifetime d = some s := by
    cases hpc : w.sup.pc <;> simp [Supervisor.created, hpc] at hret <;> exact ⟨_, rfl⟩
  cases hin s hs
  obtain ⟨stage', hrun, -, hreturned⟩ := Supervisor.ends_step hs ht
  refine ⟨stage', ?_, hreturned process hret⟩
  rw [Machine.collect_snoc h]
  exact Lifetime.after_append hafter hrun

/-- A child that was killed because the start failed is reaped before the return. -/
theorem reaped_at_return (he : Eviction w) (hw : WaitsHonest w (.supervisor x))
    (hpc : w.sup.pc = .waitKilledChild) (hx : x ≠ .fail EINTR)
    (ht : step w (.supervisor x) = some w') :
    w'.reaped.childA = true ∧ w'.released = w.released := by
  have hunreaped := (he.reapingA.unreaped (.inl (by rw [hpc]; rfl))).2
  change Supervisor.step w x = some w' at ht
  simp only [Supervisor.step, hpc] at ht
  cases x with
  | fail e =>
    cases hw (by rw [hpc]; rfl) hunreaped
    exact absurd rfl hx
  | reap usage =>
    simp only [Supervisor.waitA, hunreaped, Bool.false_eq_true, if_false] at ht
    split at ht <;> cases ht
    exact ⟨rfl, rfl⟩
  | _ => simp [Supervisor.waitA] at ht

/-- A released child and the read end of its status pipe, or no process, no open
end, and no child that got anywhere. -/
def AllOrNothing (q : Request) (acts : List Act) (w : World) (process : SandboxProcess) : Prop :=
  (∀ d, ∃ stage,
    Lifetime.after (Machine.collect step (endHandlings d) (.init q) acts) = some stage ∧
      (stage = .held ↔ process.status_fd = some d)) ∧
  (0 < process.host_pid ∧ process.status_fd = some status0 ∧ w.released = true ∨
    process.host_pid ≤ 0 ∧ process.status_fd = none ∧
      (w.childA ≠ .unborn → w.reaped.childA = true ∧
        Machine.Always step (fun s => s.childA.beforeSync = true) (.init q) acts))

theorem allOrNothing_of_created {process : SandboxProcess} (h : Runs q acts w)
    (hw : Machine.Along step WaitsHonest (.init q) (acts ++ [Act.supervisor x]))
    (ht : step w (.supervisor x) = some w') (hret : Supervisor.created w x = some process) :
    AllOrNothing q (acts ++ [Act.supervisor x]) w' process := by
  refine ⟨ends_at_return h ht hret, ?_⟩
  rw [Machine.along_snoc h] at hw
  have he := Eviction.reach h hw.1
  have hstep : Supervisor.step w x = some w' := ht
  cases hpc : w.sup.pc with
  | createPipes n =>
    simp only [Supervisor.created, hpc] at hret
    simp only [Supervisor.step, hpc] at hstep
    cases x <;> simp only [reduceCtorEq] at hstep <;> cases hstep
    · simp at hret
    · cases hret
      exact .inr ⟨by decide, rfl, fun hn => absurd (he.lineage.unborn (by rw [hpc]; rfl)) hn⟩
  | fork =>
    simp only [Supervisor.created, hpc] at hret
    simp only [Supervisor.step, hpc] at hstep
    cases x <;> simp only [reduceCtorEq] at hstep
    · cases hstep
      cases hret
      exact .inr ⟨by decide, rfl, fun hn => absurd (he.lineage.unborn (by rw [hpc]; rfl)) hn⟩
    · simp at hret
  | release =>
    simp only [Supervisor.created, hpc] at hret
    split at hret
    · rename_i hx
      rw [Bool.and_eq_true, decide_eq_true_eq] at hx
      obtain ⟨rfl, ha⟩ := hx
      cases hret
      simp only [Supervisor.step, hpc, ha, if_true, Option.some.injEq] at hstep
      subst hstep
      exact .inl ⟨Numbered.reach h (by rw [hpc]; rfl), rfl, rfl⟩
    · cases hret
  | waitKilledChild =>
    simp only [Supervisor.created, hpc] at hret
    split at hret
    · cases hret
    · rename_i hx
      cases hret
      obtain ⟨hreaped, hreleased⟩ := reaped_at_return he hw.2 hpc hx ht
      have hheld : w'.released = false := hreleased.trans (he.penned.unreleased (by rw [hpc]; rfl))
      exact .inr ⟨by decide, rfl, fun _ => ⟨hreaped,
        always_beforeSync (Lineage.init q) (Machine.run_snoc.2 ⟨w, h, ht⟩) hheld⟩⟩
  | _ => simp [Supervisor.created, hpc] at hret

/-- Every call of `createExecutionProcess` is interrupted and made again, or leaves
one call less to make, or returns, and then all or nothing. -/
theorem created_all_or_nothing (h : Runs q acts w)
    (hw : Machine.Along step WaitsHonest (.init q) (acts ++ [.supervisor x]))
    (hin : w.sup.pc.callsLeft ≠ 0) (ht : step w (.supervisor x) = some w') :
    (Supervisor.created w x = none → x = .fail EINTR ∧ w' = w ∨
      0 < w'.sup.pc.callsLeft ∧ w'.sup.pc.callsLeft < w.sup.pc.callsLeft) ∧
    ∀ process, Supervisor.created w x = some process →
      AllOrNothing q (acts ++ [.supervisor x]) w' process :=
  ⟨fun hret => Supervisor.callsLeft_step hin hret ht,
    fun _ hret => allOrNothing_of_created h hw ht hret⟩

/-- The release byte cannot be written. -/
def releaseFails : List Act :=
  List.replicate 6 (Act.runner .ok) ++ List.replicate 6 (Act.supervisor .ok) ++
    [Act.supervisor (.count 7),
    .supervisor .ok, .supervisor .ok, .supervisor (.fail EPIPE), .supervisor .ok, .die .childA]

theorem created_all_or_nothing_releaseFails :
    ∃ w' : World, w'.childA ≠ .unborn ∧
      AllOrNothing ⟨[], 1000, 0⟩ (releaseFails ++ [.supervisor (.reap .zero)]) w' {} := by
  obtain ⟨w, w', hw, hpc, ht, hA⟩ : ∃ w w', Runs ⟨[], 1000, 0⟩ releaseFails w ∧
      w.sup.pc = .waitKilledChild ∧ step w (.supervisor (.reap .zero)) = some w' ∧
      w'.childA ≠ .unborn :=
    exists_last_step (by decide +kernel)
  have hall := created_all_or_nothing hw (by decide +kernel) (by rw [hpc]; decide) ht
  exact ⟨w', hA, hall.2 {} (by simp [Supervisor.created, hpc])⟩

end OnlineJudge
