import OnlineJudge.System

/-!
# Lineage

Who was forked, who was released and who has ended, in every reachable state:
facts about the two children that hold whatever the calls return.
-/

namespace OnlineJudge

/-- How far the supervisor has come. -/
inductive Phase
  /-- Child A is not forked yet. -/
  | before
  /-- Child A waits for its release. -/
  | attaching
  /-- Child A was released, and the execution goes its way. -/
  | started
  /-- Only a failure is left, or nothing. -/
  | over
  deriving DecidableEq

def SupervisorPc.phase : SupervisorPc → Phase
  | unborn | mkdirCgroup | mkdtemp | createPipes _ | fork => .before
  | openProcs | writeProcs | release => .attaching
  | send .ready _ | send .setupFailed _ | send .terminated _ | poll | readControl
  | openKill .loop | writeKill .loop | readStatus | waitFailed _ | waitNoHang
  | removeCgroup (.payload _) _ | removeCgroup .finished _ => .started
  | killChild | waitKilledChild | send .prepare _ | removeCgroup .noProcess _
  | openKill .failure | writeKill .failure | failureKill | failureWait | exited _ => .over

attribute [grind =] SupervisorPc.phase

/-- What a call of the supervisor does to its phase and to what Child A knows
of it. -/
inductive Phases (w w' : World) : Prop
  | same (hp : w'.sup.pc.phase = w.sup.pc.phase) (ha : w'.childA = w.childA)
    (hr : w'.released = w.released)
    (hc : w'.cgroup.hasA = w.cgroup.hasA ∨ w.sup.pc.phase = .attaching)
  | forked (hp : w.sup.pc.phase = .before) (hp' : w'.sup.pc.phase = .attaching)
    (ha : w'.childA = .awaitRelease) (hr : w'.released = w.released)
    (hc : w'.cgroup.hasA = w.cgroup.hasA)
  | released (hp : w.sup.pc.phase = .attaching) (hp' : w'.sup.pc.phase = .started)
    (ha : w'.childA = w.childA) (hc : w'.cgroup.hasA = w.cgroup.hasA)
  | over (hp' : w'.sup.pc.phase = .over) (ha : w'.childA = w.childA)
    (hr : w'.released = w.released) (hc : w'.cgroup.hasA = w.cgroup.hasA)

namespace ChildA

/-- Child B is not forked yet. -/
def beforeFork : ChildA → Bool
  | unborn | awaitRelease | setup _ _ | report _ _ | fork => true
  | _ => false

/-- Child B was waited for. -/
def afterWait : ChildA → Bool
  | forward _ _ | closeStatus _ | leave _ => true
  | _ => false

end ChildA

variable {q : Request} {acts : List Act} {w w' : World} {x : Answer} {a : Act}

theorem Phases.quiet (ha : w'.childA = w.childA) (hr : w'.released = w.released)
    (hc : w'.cgroup.hasA = w.cgroup.hasA)
    (hp : w'.sup.pc.phase = w.sup.pc.phase ∨ w'.sup.pc.phase = .over) : Phases w w' :=
  hp.elim (fun hp => .same hp ha hr (.inl hc)) fun hp => .over hp ha hr hc

theorem Supervisor.Move.phases (hm : Supervisor.Move w x w') : Phases w w' := by
  cases hm with
  | attached => exact .same (by grind -linarith) rfl rfl (.inr (by grind -linarith))
  | forked => exact .forked (by grind -linarith) (by grind -linarith) rfl rfl rfl
  | released => exact .released (by grind -linarith) (by grind -linarith) rfl rfl
  | @sent caller | @sendFailed _ caller | @openedKill caller | @killWritten caller
  | @killDenied _ caller
  | @killFailed _ caller | @removed caller | @removeBusy caller | @removeDenied caller
  | @removeFailed caller =>
    cases caller <;> exact .quiet rfl rfl rfl (by grind -linarith)
  | gotControl =>
    refine .quiet rfl rfl rfl ?_
    rcases w.sup.handleControl_cases
      (.ofBytes (w.toSup.pending.take headerSize)) with h | ⟨h, -⟩ | ⟨h, -⟩ | ⟨h, -⟩ <;>
      simp only [h] <;> grind -linarith
  | @gotStatus r => cases r <;> exact .quiet rfl rfl rfl (by grind -linarith)
  | waitedA site | waitAFailed site => cases site <;> exact .quiet rfl rfl rfl (by grind -linarith)
  | _ => exact .quiet rfl rfl rfl (by grind -linarith)

/-- Who has been born, released and attached. -/
structure Lineage (w : World) : Prop where
  unforked : (∃ n, w.runner.pc = .setup n) → w.sup.pc = .unborn
  unborn : w.sup.pc.phase = .before → w.childA = .unborn
  born : w.sup.pc.phase = .attaching ∨ w.sup.pc.phase = .started → w.childA ≠ .unborn
  held : w.sup.pc.phase = .before ∨ w.sup.pc.phase = .attaching → w.released = false
  waiting : w.released = false → (w.childA = .unborn ∨ w.childA = .awaitRelease ∨
    ∃ s, w.childA = .exited s) ∧ w.childB = .unborn
  unbornB : w.childA.beforeFork = true → w.childB = .unborn
  waitedB : w.childA.afterWait = true → w.childB.alive = false
  orphaned : w.childA.alive = false → w.childB.alive = true → w.killed.childA = true
  together : w.childB ≠ .unborn → w.cgroup.hasB = w.cgroup.hasA

theorem Supervisor.Move.killed_mono (hm : Supervisor.Move w x w')
    (h : w.killed.childA = true) : w'.killed.childA = true := by
  cases hm <;> grind -linarith

theorem Supervisor.Move.hasB (hm : Supervisor.Move w x w') : w'.cgroup.hasB = w.cgroup.hasB := by
  cases hm <;> rfl

theorem Supervisor.Move.eq_or_alive (hm : Supervisor.Move w x w') :
    w' = w ∨ w.sup.alive = true := by
  cases hm with
  | again => exact .inl rfl
  | waitedA site | waitAFailed site => cases site <;> grind -linarith [Supervisor.alive]
  | _ => grind -linarith [Supervisor.alive]

attribute [grind =] ChildA.beforeFork ChildA.afterWait ChildA.alive ChildB.alive Supervisor.alive

namespace Lineage

theorem supervisor (h : Lineage w) (hm : Supervisor.Move w x w') : Lineage w' := by
  rcases hm.eq_or_alive with rfl | halive
  · exact h
  obtain ⟨hu, hub, hborn, hheld, hwait, hbf, haw, horph, htog⟩ := h
  have hr := hm.runner
  have hb := hm.childB
  have hk := hm.killed_mono
  have hB := hm.hasB
  cases hm.phases <;> constructor <;> grind -linarith

theorem runner (h : Lineage w) (hm : Runner.Move w x w') : Lineage w' := by
  obtain ⟨hu, hub, hborn, hheld, hwait, hbf, haw, horph, htog⟩ := h
  have hsetup := hm.setup
  have hk := hm.killed_mono
  have hA := hm.hasA
  have hB := hm.hasB
  rcases hm.sup with hs | ⟨hpc, -, hs⟩
  · constructor <;> grind -linarith
  · have := hu hpc
    constructor <;> grind -linarith

theorem childA (h : Lineage w) (hm : ChildA.Move w x w') : Lineage w' := by
  obtain ⟨hu, hub, hborn, hheld, hwait, hbf, haw, horph, htog⟩ := h
  cases hm with
  | released => constructor <;> grind -linarith [childASetup, ChildA.next]
  | @setupDone _ rest => have := ChildA.next_cases rest; constructor <;> grind -linarith
  | forked => have := ChildB.next_cases childBSetup; constructor <;> grind -linarith
  | _ => constructor <;> grind -linarith

theorem childB (h : Lineage w) (hm : ChildB.Move w x w') : Lineage w' := by
  obtain ⟨hu, hub, hborn, hheld, hwait, hbf, haw, horph, htog⟩ := h
  cases hm with
  | @setupDone _ rest => have := ChildB.next_cases rest; constructor <;> grind -linarith
  | _ => constructor <;> grind -linarith

theorem keep (h : Lineage w) (hm : Move w a w') : Lineage w' := by
  cases hm with
  | runner hm => exact h.runner hm
  | supervisor hm => exact h.supervisor hm
  | childA hm => exact h.childA hm
  | childB hm => exact h.childB hm
  | _ =>
    obtain ⟨hu, hub, hborn, hheld, hwait, hbf, haw, horph, htog⟩ := h
    constructor <;> grind -linarith

theorem init (q : Request) : Lineage (.init q) := by
  constructor <;> simp [World.init, SupervisorPc.phase, ChildA.afterWait, ChildB.alive]

theorem reach (h : Runs q acts w) : Lineage w :=
  Machine.run_keeps (fun _ _ _ hw ht => hw.keep (moves_step ht)) (init q) h

end Lineage

end OnlineJudge
