import OnlineJudge.Lib.Lifetime
import OnlineJudge.Opening

/-!
# Reaping

The runner waits for the supervisor in four places, the supervisor for Child A in
four: each path that ends after the fork passes exactly one `wait` that succeeds,
and makes no further call on the process id.
-/

namespace OnlineJudge

variable {q : Request} {acts : List Act} {w w' : World} {x : Answer} {a : Act}

/-! ## Calls on a process id -/

namespace RunnerPc

/-- `waitpid` on the supervisor. -/
def waits : RunnerPc → Bool
  | reapFailed | finishSetupFailed | finishTerminated | reapSupervisor | waitSupervisor _
  | cleanupNoHang _ _ => true
  | _ => false

end RunnerPc

namespace SupervisorPc

/-- `wait4` on Child A. -/
def waits : SupervisorPc → Bool
  | waitKilledChild | waitFailed _ | waitNoHang | failureWait => true
  | _ => false

/-- `kill` on Child A. -/
def kills : SupervisorPc → Bool
  | killChild | failureKill => true
  | _ => false

end SupervisorPc

attribute [grind =] RunnerPc.waits SupervisorPc.waits SupervisorPc.kills

/-- What a call of the runner does to the supervisor: the fork, `waitpid` and
`kill`. -/
def supervisorHandlings (w : World) : Act → List Handling
  | .runner x =>
    match w.runner.pc with
    | .setup n => if 5 ≤ n && x = .ok then [.acquired] else []
    | .killSupervisor _ => [.used]
    | pc =>
      if pc.waits then
        -- the process id was returned, or not
        if (Runner.step w x).any fun w' => w'.reaped.supervisor && !w.reaped.supervisor then
          [.released]
        else [.used]
      else []
  | _ => []

/-- What a call of the supervisor does to Child A: the fork, `wait4` and
`kill`. -/
def childAHandlings (w : World) : Act → List Handling
  | .supervisor x =>
    match w.sup.pc with
    | .fork => if x matches .count _ then [.acquired] else []
    | pc =>
      if pc.kills then [.used]
      else if pc.waits then
        if (Supervisor.step w x).any fun w' => w'.reaped.childA && !w.reaped.childA then
          [.released]
        else [.used]
      else []
  | _ => []

/-- A wait for a child that was not reaped fails only with `EINTR`. -/
def WaitsHonest (w : World) : Act → Prop
  | .runner (.fail e) => w.runner.pc.waits = true → w.reaped.supervisor = false → e = EINTR
  | .supervisor (.fail e) => w.sup.pc.waits = true → w.reaped.childA = false → e = EINTR
  | _ => True

instance (w : World) (a : Act) : Decidable (WaitsHonest w a) := by
  unfold WaitsHonest
  split <;> infer_instance

/-! ## The supervisor -/

/-- The runner has passed the wait that reaps the supervisor. -/
def Runner.pastWait (r : Runner) : Bool :=
  match r.pc with
  | .returned => true
  | .loop => r.supervisor_reaped
  | .openKill site | .writeKill site | .checkEmpty site _ | .lastCheck site =>
    !site.afterReady || r.cleanup_reaped
  | .accessCgroup _ | .removeCgroup _ => true
  | _ => false

attribute [grind =] Runner.pastWait

/-- The supervisor was reaped iff the runner has passed the wait for it; the two
flags that record it agree. -/
structure Passed (reaped : Bool) (r : Runner) : Prop where
  settled : reaped = r.pastWait
  cleanup : r.cleanup_reaped = true → r.pastWait = true
  flag : r.supervisor_reaped = true →
    r.pc = .returned ∨ r.pc = .loop ∧ r.submission_finished = true

namespace Passed

section
variable {r : Runner} {site : Cleanup} {use : CleanupUse}

theorem endCleanup (r : Runner) (site : Cleanup) : Passed true (r.endCleanup site) := by
  rcases site with _ | _ | _ | _ <;> constructor <;> grind -linarith

theorem afterReap (hf : r.supervisor_reaped = false) : Passed true (r.afterReap use) := by
  unfold Runner.afterReap
  split
  · exact ⟨rfl, fun _ => rfl, by simp [Runner.go, hf]⟩
  · exact endCleanup r _

theorem contained (hf : r.supervisor_reaped = false) (ok : Bool) (site : Cleanup) :
    Passed (!site.afterReady || r.cleanup_reaped) (r.contained ok site) := by
  rcases site with unexpected | use
  · cases ok
    · exact endCleanup { r with containment_failed := true } (.beforeReady unexpected)
    · exact ⟨rfl, fun _ => rfl, by simp [Runner.contained, Runner.go, hf]⟩
  · have hcontain (r₁ : Runner) (hf₁ : r₁.supervisor_reaped = false) :
        Passed r₁.cleanup_reaped (r₁.afterContain use) := by
      unfold Runner.afterContain
      split
      · rename_i hr
        rw [hr]
        exact afterReap hf₁
      · rename_i hr
        rw [Bool.not_eq_true] at hr
        exact ⟨hr, by simp [Runner.go, hr], by simp [Runner.go, hf₁]⟩
    cases ok
    · exact hcontain { r with containment_failed := true } hf
    · exact hcontain { r with execution_contained := true } hf

theorem cleanupWaited (hf : r.supervisor_reaped = false) (ok : Bool) (site : Cleanup) :
    Passed true (r.cleanupWaited ok site) := by
  rcases site with unexpected | use
  · exact ⟨rfl, fun _ => rfl, by simp [Runner.cleanupWaited, Runner.go, hf]⟩
  · cases ok
    · exact afterReap (by exact hf)
    · exact afterReap (by exact hf)

end

/-- Where a call on the supervisor is about to be made, it was not reaped. -/
theorem unreaped (h : Passed w.reaped.supervisor w.runner)
    (hpc : w.runner.pc.waits = true ∨ ∃ site, w.runner.pc = .killSupervisor site) :
    w.reaped.supervisor = false := by
  rw [h.settled]
  rcases hpc with hpc | ⟨site, hpc⟩
  · revert hpc
    cases w.runner with | mk pc => cases pc <;> simp [RunnerPc.waits, Runner.pastWait]
  · simp [hpc, Runner.pastWait]

theorem waits_of_site {yes no : Runner} (site : Runner.WaitSite w yes no) :
    w.runner.pc.waits = true := by
  cases site <;> rename_i hpc <;> rw [hpc] <;> rfl

theorem move (h : Passed w.reaped.supervisor w.runner) (hord : w.runner.Ordered)
    (hsetup : ∀ n, w.runner.pc ≠ .setup n) (hw : WaitsHonest w (.runner x))
    (hm : Runner.Move w x w') : Passed w'.reaped.supervisor w'.runner := by
  have hunreaped := h.unreaped
  have hfin := hord.finishing
  have hset := hord.settling
  obtain ⟨hsettled, hcleanup, hflag⟩ := h
  cases hm with
  | again => exact ⟨hsettled, hcleanup, hflag⟩
  | setupDone hpc | forked hpc | setupFailed hpc => exact absurd hpc (hsetup _)
  | got site | lost site => clear hw; cases site <;> constructor <;> grind -linarith
  | sent site | sendFailed site => clear hw; cases site <;> constructor <;> grind -linarith
  | waited site =>
    clear hw
    cases site with
    | @cleanup site hpc => exact cleanupWaited (by grind -linarith) true site
    | _ => constructor <;> grind -linarith
  | waitFailed site hx =>
    -- the kernel does not fail a wait for a child that was not reaped
    have hwaits := waits_of_site site
    have hno := hunreaped (.inl hwaits)
    rcases hx with ⟨e, rfl, he⟩ | ⟨-, hr⟩
    · exact absurd (hw hwaits hno) he
    · rw [hno] at hr
      cases hr
  | cleanupLooked hpc hnext =>
    clear hw
    rcases hnext with rfl | rfl <;> constructor <;> grind -linarith
  | @killFailed _ site hpc =>
    have hr : w.reaped.supervisor = (!site.afterReady || w.runner.cleanup_reaped) := by
      rw [hsettled]
      rcases hpc with hpc | hpc <;> simp [Runner.pastWait, hpc]
    exact hr ▸ contained (by grind -linarith) false site
  | @foundEmpty site hpc =>
    have hr : w.reaped.supervisor = (!site.afterReady || w.runner.cleanup_reaped) := by
      simp [hsettled, Runner.pastWait, hpc]
    exact hr ▸ contained (by grind -linarith) true site
  | @foundPopulated _ site hpc =>
    have hr : w.reaped.supervisor = (!site.afterReady || w.runner.cleanup_reaped) := by
      simp [hsettled, Runner.pastWait, hpc]
    exact hr ▸ contained (by grind -linarith) false site
  | @removeSkipped _ site hpc =>
    have hr : w.reaped.supervisor = true := by
      rw [hsettled]
      rcases hpc with hpc | hpc <;> simp [Runner.pastWait, hpc]
    exact hr ▸ endCleanup _ site
  | @removed site hpc =>
    have hr : w.reaped.supervisor = true := by simp [hsettled, Runner.pastWait, hpc]
    exact hr ▸ endCleanup _ site
  | @removeFailed _ site hpc =>
    have hr : w.reaped.supervisor = true := by simp [hsettled, Runner.pastWait, hpc]
    exact hr ▸ endCleanup { w.runner with containment_failed := true } site
  | _ => clear hw; constructor <;> grind -linarith

end Passed
theorem Supervisor.Move.born (hm : Supervisor.Move w x w') (h : w.sup.pc ≠ .unborn) :
    w'.sup.pc ≠ .unborn := by
  cases hm with
  | gotControl =>
    rcases w.sup.handleControl_cases
      (.ofBytes (w.toSup.pending.take headerSize)) with he | he | he | he <;> grind -linarith
  | @gotStatus r => cases r <;> grind -linarith
  | waitedA site | waitAFailed site => cases site <;> grind -linarith
  | @sent caller | @sendFailed _ caller | @openedKill caller | @killWritten caller
  | @killDenied _ caller | @killFailed _ caller | @removed caller | @removeBusy caller
  | @removeDenied caller | @removeFailed caller =>
    cases caller <;> grind -linarith
  | _ => grind -linarith

theorem Supervisor.Move.reaped_supervisor (hm : Supervisor.Move w x w') :
    w'.reaped.supervisor = w.reaped.supervisor := by
  cases hm <;> rfl

/-- Only the runner forks the supervisor or reaps it. -/
theorem Move.runner_or_apart (hm : Move w a w') :
    (∃ x, a = .runner x ∧ Runner.Move w x w') ∨
    w'.runner = w.runner ∧ (w.sup.pc = .unborn ↔ w'.sup.pc = .unborn) ∧
      w'.reaped.supervisor = w.reaped.supervisor := by
  cases hm with
  | runner hm => exact .inl ⟨_, rfl, hm⟩
  | supervisor hm =>
    refine .inr ⟨hm.runner, ⟨fun hu => ?_, fun hu => by_contra fun hn => hm.born hn hu⟩,
      hm.reaped_supervisor⟩
    rcases hm.eq_or_alive with rfl | ha
    · exact hu
    · simp [Supervisor.alive, hu] at ha
  | childA hm => exact .inr ⟨hm.runner, by rw [hm.sup], by cases hm <;> rfl⟩
  | childB hm => exact .inr ⟨hm.runner, by rw [hm.sup], by rw [hm.reaped]⟩
  | diedSupervisor _ ha =>
    refine .inr ⟨rfl, iff_of_false (fun hu => ?_) (by simp [Supervisor.go]), rfl⟩
    simp [Supervisor.alive, hu] at ha
  | _ => exact .inr ⟨rfl, .rfl, rfl⟩

/-- What the runner knows of the supervisor, from the fork on. -/
structure Reaping (w : World) : Prop where
  ordered : w.runner.Ordered
  passed : w.sup.pc ≠ .unborn →
    Passed w.reaped.supervisor w.runner ∧ ∀ n, w.runner.pc ≠ .setup n
  unborn : w.sup.pc = .unborn → w.reaped.supervisor = false ∧
    w.runner.cleanup_reaped = false ∧ w.runner.supervisor_reaped = false ∧
    ((∃ n, w.runner.pc = .setup n) ∨ w.runner.pc = .returned)

namespace Reaping

theorem runner (h : Reaping w) (hw : WaitsHonest w (.runner x)) (hm : Runner.Move w x w') :
    Reaping w' := by
  have hord := h.ordered.move hm
  by_cases hu : w.sup.pc = .unborn
  · obtain ⟨hreaped, hcleanup, hflag, hpc⟩ := h.unborn hu
    clear h hw
    cases hm with
    | again => exact ⟨hord, fun hn => absurd hu hn, fun _ => ⟨hreaped, hcleanup, hflag, hpc⟩⟩
    | setupDone =>
      exact ⟨hord, fun hn => absurd hu hn,
        fun _ => ⟨hreaped, hcleanup, hflag, .inl ⟨_, rfl⟩⟩⟩
    | forked =>
      refine ⟨hord, fun _ => ⟨⟨hreaped, ?_, ?_⟩, nofun⟩, nofun⟩
      · simp [hcleanup]
      · simp [hflag]
    | setupFailed =>
      exact ⟨hord, fun hn => absurd hu hn, fun _ => ⟨hreaped, hcleanup, hflag, .inr rfl⟩⟩
    | got site | lost site => cases site <;> grind -linarith
    | sent site | sendFailed site => cases site <;> grind -linarith
    | waited site | waitFailed site => cases site <;> grind -linarith
    | _ => grind -linarith
  · obtain ⟨hpassed, hsetup⟩ := h.passed hu
    have hsup : w'.sup = w.sup := by
      rcases hm.sup with hs | ⟨⟨n, hn⟩, -⟩
      · exact hs
      · exact absurd hn (hsetup n)
    refine ⟨hord, fun _ => ⟨hpassed.move h.ordered hsetup hw hm, fun n hn => ?_⟩, fun hu' => ?_⟩
    · obtain ⟨⟨n', hn'⟩, -⟩ := hm.setup ⟨n, hn⟩
      exact hsetup n' hn'
    · rw [hsup] at hu'
      exact absurd hu' hu

theorem keep (h : Reaping w) (hw : WaitsHonest w a) (hm : Move w a w') : Reaping w' := by
  rcases hm.runner_or_apart with ⟨x, rfl, hrun⟩ | ⟨hr, hs, hreaped⟩
  · exact h.runner hw hrun
  refine ⟨hr ▸ h.ordered, fun hn => ?_, fun hu => ?_⟩
  · rw [hreaped, hr]
    exact h.passed fun hu => hn (hs.1 hu)
  · rw [hreaped, hr]
    exact h.unborn (hs.2 hu)

theorem init (q : Request) : Reaping (.init q) :=
  ⟨⟨nofun, nofun, nofun, nofun, nofun, nofun⟩, fun hn => absurd rfl hn,
    fun _ => ⟨rfl, rfl, rfl, .inl ⟨0, rfl⟩⟩⟩

end Reaping

/-- The supervisor's process id, from the fork to its reaping. -/
def supervisorLifetime (w : World) : Lifetime :=
  if w.sup.pc = .unborn then .unborn else if w.reaped.supervisor then .ended else .held

theorem supervisorLifetime_congr (hs : w.sup.pc = .unborn ↔ w'.sup.pc = .unborn)
    (hr : w'.reaped.supervisor = w.reaped.supervisor) :
    supervisorLifetime w' = supervisorLifetime w := by
  simp only [supervisorLifetime, hr, hs]

theorem Runner.Move.reaped_of_not_waits (hm : Runner.Move w x w')
    (hw : w.runner.pc.waits = false) : w'.reaped = w.reaped := by
  cases hm with
  | waited site =>
    rw [Passed.waits_of_site site] at hw
    cases hw
  | cleanupReaped hpc =>
    rw [hpc] at hw
    cases hw
  | _ => rfl

theorem supervisor_follow_runner (h : Reaping w) (ht : Runner.step w x = some w') :
    Machine.run Lifetime.step (supervisorLifetime w) (supervisorHandlings w (.runner x)) =
      some (supervisorLifetime w') := by
  have hm := Runner.moves ht
  by_cases hu : w.sup.pc = .unborn
  · obtain ⟨hreaped, -, -, ⟨n, hpc⟩ | hpc⟩ := h.unborn hu
    · simp only [Runner.step, hpc] at ht
      simp only [supervisorLifetime, hu, supervisorHandlings, hpc, if_true]
      cases x <;> simp only [Runner.setup, reduceCtorEq] at ht
      · split at ht <;> cases ht
        · rename_i hn
          simp [hu, Nat.not_le.2 hn]
        · rename_i hn
          simp [hreaped, Supervisor.go, Nat.not_lt.1 hn, Machine.run, Lifetime.step]
      · cases ht
        simp [hu]
    · simp [Runner.step, hpc] at ht
  · obtain ⟨hpassed, hsetup⟩ := h.passed hu
    have hsup : w'.sup = w.sup := by
      rcases hm.sup with hs | ⟨⟨n, hn⟩, -⟩
      · exact hs
      · exact absurd hn (hsetup n)
    have hunreaped := hpassed.unreaped
    by_cases hwaits : w.runner.pc.waits = true
    · have hr := hunreaped (.inl hwaits)
      have hheld : supervisorLifetime w = .held := by simp [supervisorLifetime, hu, hr]
      have hcalls : supervisorHandlings w (.runner x) =
          if w'.reaped.supervisor then [.released] else [.used] := by
        unfold supervisorHandlings
        cases hpc : w.runner.pc <;> simp_all [RunnerPc.waits]
      rw [hheld, hcalls, supervisorLifetime, hsup, if_neg hu]
      split <;> rfl
    · rw [Bool.not_eq_true] at hwaits
      have hreaped := hm.reaped_of_not_waits hwaits
      have hsame : supervisorLifetime w' = supervisorLifetime w :=
        supervisorLifetime_congr (by rw [hsup]) (by rw [hreaped])
      rw [hsame]
      by_cases hkill : ∃ site, w.runner.pc = .killSupervisor site
      · have hr := hunreaped (.inr hkill)
        obtain ⟨site, hpc⟩ := hkill
        simp [supervisorHandlings, hpc, supervisorLifetime, hu, hr, Machine.run, Lifetime.step]
      · have hcalls : supervisorHandlings w (.runner x) = [] := by
          unfold supervisorHandlings
          cases hpc : w.runner.pc <;> simp_all [RunnerPc.waits]
        rw [hcalls]
        rfl

theorem supervisor_follow (h : Reaping w) (ht : step w a = some w') :
    Machine.run Lifetime.step (supervisorLifetime w) (supervisorHandlings w a) =
      some (supervisorLifetime w') := by
  cases a with
  | runner => exact supervisor_follow_runner h ht
  | _ =>
    rcases (moves_step ht).runner_or_apart with ⟨x, hx, -⟩ | ⟨-, hs, hreaped⟩
    · cases hx
    · rw [supervisorLifetime_congr hs hreaped]
      rfl

/-! ## Child A -/

namespace SupervisorPc

/-- Reached without a Child A, too. -/
def childless : SupervisorPc → Bool
  | unborn | mkdirCgroup | mkdtemp | createPipes _ | fork | send .prepare _
  | removeCgroup .noProcess _ | exited _ => true
  | _ => false

/-- The supervisor has passed the wait that reaps Child A, if there is one. -/
def pastWait : SupervisorPc → Bool
  | send .prepare _ | send .setupFailed _ | send .terminated _ | removeCgroup _ _ | exited _ => true
  | _ => false

/-- The supervisor ended by a signal. -/
def shot : SupervisorPc → Bool
  | exited s => !WIFEXITED s
  | _ => false

end SupervisorPc

attribute [grind =] SupervisorPc.childless SupervisorPc.pastWait SupervisorPc.shot

theorem Supervisor.interrupted (hpc : w.sup.pc.waits = true)
    (ht : Supervisor.step w (.fail EINTR) = some w') : w' = w := by
  cases hs : w.sup.pc <;> simp [hs, SupervisorPc.waits] at hpc <;>
    simp [Supervisor.step, hs, Supervisor.waitA, Supervisor.waitNoHang] at ht <;> exact ht.symm

theorem ChildA.Move.born (hm : ChildA.Move w x w') : w.childA = .unborn ↔ w'.childA = .unborn := by
  cases hm with
  | released =>
    have := ChildA.next_cases childASetup
    grind -linarith
  | @setupDone _ rest =>
    have := ChildA.next_cases rest
    grind -linarith
  | _ => grind -linarith

/-- Only the supervisor forks Child A or reaps it. -/
theorem Move.supervisor_or_apart (hm : Move w a w') :
    (∃ x, a = .supervisor x ∧ Supervisor.Move w x w') ∨
    (w.childA = .unborn ↔ w'.childA = .unborn) ∧ w'.reaped.childA = w.reaped.childA ∧
      (w'.sup.pc = w.sup.pc ∨ (∃ n, w.runner.pc = .setup n) ∧ w'.sup.pc = .mkdirCgroup ∨
        w'.sup.pc = .exited (signalStatus SIGKILL)) := by
  cases hm with
  | supervisor hm => exact .inl ⟨_, rfl, hm⟩
  | runner hm =>
    refine .inr ⟨by rw [hm.childA], by cases hm <;> rfl, ?_⟩
    rcases hm.sup with hs | ⟨hpc, -, hs⟩
    · exact .inl (by rw [hs])
    · exact .inr (.inl ⟨hpc, by rw [hs]; rfl⟩)
  | childA hm => exact .inr ⟨hm.born, by cases hm <;> rfl, .inl (by rw [hm.sup])⟩
  | childB hm => exact .inr ⟨by rw [hm.childA], by rw [hm.reaped], .inl (by rw [hm.sup])⟩
  | diedSupervisor => exact .inr ⟨.rfl, rfl, .inr (.inr rfl)⟩
  | diedA _ ha =>
    refine .inr ⟨iff_of_false (fun hu => ?_) nofun, rfl, .inl rfl⟩
    simp [ChildA.alive, hu] at ha
  | _ => exact .inr ⟨.rfl, rfl, .inl rfl⟩

/-- What the supervisor knows of Child A, from the fork on. -/
structure ReapingA (w : World) : Prop where
  settled : w.childA ≠ .unborn → w.sup.pc.shot = false → w.reaped.childA = w.sup.pc.pastWait
  unborn : w.childA = .unborn → w.reaped.childA = false ∧ w.sup.pc.childless = true

@[grind =] theorem WIFEXITED_exitStatus (code : Nat) : WIFEXITED (exitStatus code) = true := by
  have h : code % 256 * 256 % 2 ^ 32 % 128 = 0 := by omega
  simp only [WIFEXITED, WTERMSIG, exitStatus, BitVec.toNat_ofNat, h, decide_true]

/-- Where Child A is killed or waited for. -/
theorem SupervisorPc.of_calls {pc : SupervisorPc} (h : pc.waits = true ∨ pc.kills = true) :
    pc.childless = false ∧ pc.shot = false ∧ pc.pastWait = false := by
  cases pc <;> simp_all [waits, kills, childless, shot, pastWait]

namespace ReapingA

theorem unreaped (h : ReapingA w) (hpc : w.sup.pc.waits = true ∨ w.sup.pc.kills = true) :
    w.childA ≠ .unborn ∧ w.reaped.childA = false := by
  obtain ⟨hchildless, hshot, hpast⟩ := SupervisorPc.of_calls hpc
  have hborn : w.childA ≠ .unborn := by
    intro hu
    rw [(h.unborn hu).2] at hchildless
    cases hchildless
  exact ⟨hborn, (h.settled hborn hshot).trans hpast⟩

theorem supervisor (h : ReapingA w) (hl : Lineage w) (hm : Supervisor.Move w x w')
    (hw : w.sup.pc.waits = true → ∀ e, x ≠ .fail e) : ReapingA w' := by
  have hunreaped := h.unreaped
  have hunborn := hl.unborn
  obtain ⟨hsettled, hchildless⟩ := h
  clear hl
  cases hm with
  | gotControl =>
    rcases w.sup.handleControl_cases
      (.ofBytes (w.toSup.pending.take headerSize)) with he | he | he | he <;>
      constructor <;> grind -linarith
  | @gotStatus r => cases r <;> constructor <;> grind -linarith
  | waitedA site | waitAFailed site => cases site <;> constructor <;> grind -linarith
  | @sent caller | @sendFailed _ caller | @openedKill caller | @killWritten caller
  | @killDenied _ caller | @killFailed _ caller | @removed caller | @removeBusy caller
  | @removeDenied caller | @removeFailed caller =>
    cases caller <;> constructor <;> grind -linarith
  | _ => constructor <;> grind -linarith

theorem keep (h : ReapingA w) (hl : Lineage w) (hw : WaitsHonest w a)
    (ht : OnlineJudge.step w a = some w') : ReapingA w' := by
  rcases (moves_step ht).supervisor_or_apart with ⟨x, rfl, hm⟩ | ⟨hborn, hreaped, hsup⟩
  · by_cases hcalm : w.sup.pc.waits = true → ∀ e, x ≠ .fail e
    · exact h.supervisor hl hm hcalm
    · -- the kernel does not fail a wait for a child that was not reaped
      simp only [not_forall, not_not] at hcalm
      obtain ⟨hwaits, e, rfl⟩ := hcalm
      cases hw hwaits (h.unreaped (.inl hwaits)).2
      exact Supervisor.interrupted hwaits ht ▸ h
  · obtain ⟨hsettled, hchildless⟩ := h
    rw [← hreaped] at hsettled hchildless
    rcases hsup with hs | ⟨hsetup, hs⟩ | hs
    · rw [← hs] at hsettled hchildless
      exact ⟨fun hn => hsettled fun hu => hn (hborn.1 hu), fun hu => hchildless (hborn.2 hu)⟩
    · have hu : w.childA = .unborn := hl.unborn (by rw [hl.unforked hsetup]; rfl)
      exact ⟨fun hn => absurd (hborn.1 hu) hn, fun _ => ⟨(hchildless hu).1, by rw [hs]; rfl⟩⟩
    · have hshot : w'.sup.pc.shot = true := by rw [hs]; decide
      refine ⟨fun _ hno => ?_, fun hu => ⟨(hchildless (hborn.2 hu)).1, by rw [hs]; rfl⟩⟩
      rw [hshot] at hno
      cases hno

theorem init (q : Request) : ReapingA (.init q) := ⟨fun hn => absurd rfl hn, fun _ => ⟨rfl, rfl⟩⟩

end ReapingA

/-- Child A's process id, from the fork to its reaping. -/
def childALifetime (w : World) : Lifetime :=
  if w.childA = .unborn then .unborn else if w.reaped.childA then .ended else .held

theorem childALifetime_congr (hs : w.childA = .unborn ↔ w'.childA = .unborn)
    (hr : w'.reaped.childA = w.reaped.childA) : childALifetime w' = childALifetime w := by
  simp only [childALifetime, hr, hs]

theorem Supervisor.Move.of_not_waits (hm : Supervisor.Move w x w')
    (hwaits : w.sup.pc.waits = false) : w'.reaped = w.reaped := by
  cases hm with
  | reapedA hpc =>
    rw [hpc] at hwaits
    cases hwaits
  | waitedA site =>
    cases site <;> rename_i hpc <;> rw [hpc] at hwaits <;> cases hwaits
  | _ => rfl

theorem Supervisor.Move.of_not_fork (hm : Supervisor.Move w x w') (hfork : w.sup.pc ≠ .fork) :
    w'.childA = w.childA := by
  cases hm with
  | forked hpc => exact absurd hpc hfork
  | _ => rfl

theorem childA_follow_supervisor (h : ReapingA w) (hl : Lineage w)
    (ht : Supervisor.step w x = some w') :
    Machine.run Lifetime.step (childALifetime w) (childAHandlings w (.supervisor x)) =
      some (childALifetime w') := by
  have hm := Supervisor.moves ht
  by_cases hfork : w.sup.pc = .fork
  · have hu : w.childA = .unborn := hl.unborn (by rw [hfork]; rfl)
    have hr := (h.unborn hu).1
    simp only [Supervisor.step, hfork] at ht
    simp only [childAHandlings, hfork, childALifetime, hu, if_true]
    cases x <;> simp only [reduceCtorEq] at ht
    · cases ht
      simp [hu]
    · split at ht <;> cases ht
      simp [hr, Machine.run, Lifetime.step]
  have hA := hm.of_not_fork hfork
  by_cases hwaits : w.sup.pc.waits = true
  · obtain ⟨hborn, hr⟩ := h.unreaped (.inl hwaits)
    have hheld : childALifetime w = .held := by simp [childALifetime, hborn, hr]
    have hcalls : childAHandlings w (.supervisor x) =
        if w'.reaped.childA then [.released] else [.used] := by
      unfold childAHandlings
      cases hpc : w.sup.pc <;> simp_all [SupervisorPc.waits, SupervisorPc.kills]
    rw [hheld, hcalls, childALifetime, hA, if_neg hborn]
    split <;> rfl
  · rw [Bool.not_eq_true] at hwaits
    have hreaped := hm.of_not_waits hwaits
    have hsame : childALifetime w' = childALifetime w :=
      childALifetime_congr (by rw [hA]) (by rw [hreaped])
    rw [hsame]
    by_cases hkills : w.sup.pc.kills = true
    · obtain ⟨hborn, hr⟩ := h.unreaped (.inr hkills)
      have hcalls : childAHandlings w (.supervisor x) = [.used] := by
        unfold childAHandlings
        cases hpc : w.sup.pc <;> simp_all [SupervisorPc.waits, SupervisorPc.kills]
      simp [hcalls, childALifetime, hborn, hr, Machine.run, Lifetime.step]
    · have hcalls : childAHandlings w (.supervisor x) = [] := by
        unfold childAHandlings
        cases hpc : w.sup.pc <;> simp_all [SupervisorPc.waits, SupervisorPc.kills]
      rw [hcalls]
      rfl

theorem childA_follow (h : ReapingA w) (hl : Lineage w) (ht : step w a = some w') :
    Machine.run Lifetime.step (childALifetime w) (childAHandlings w a) =
      some (childALifetime w') := by
  cases a with
  | supervisor => exact childA_follow_supervisor h hl ht
  | _ =>
    rcases (moves_step ht).supervisor_or_apart with ⟨x, hx, -⟩ | ⟨hborn, hreaped, -⟩
    · cases hx
    · rw [childALifetime_congr hborn hreaped]
      rfl

/-! ## Runs -/

/-- As long as no wait for a child that was not reaped fails, but by `EINTR`, the
runner reaps the supervisor, and the supervisor Child A, once on every path that
ends, and neither makes a call on the process id before the fork or after the
reaping. -/
theorem children_reaped_once (h : Runs q acts w)
    (hw : Machine.Along step WaitsHonest (.init q) acts) :
    (∃ lifetime,
      Lifetime.after (Machine.collect step supervisorHandlings (.init q) acts) = some lifetime) ∧
    (w.runner.pc = .returned → w.sup.pc ≠ .unborn →
      ∃ uses, Machine.collect step supervisorHandlings (.init q) acts =
        .acquired :: uses ++ [.released] ∧ ∀ u ∈ uses, u = .used) ∧
    (∃ lifetime,
      Lifetime.after (Machine.collect step childAHandlings (.init q) acts) = some lifetime) ∧
    ∀ status, w.sup.pc = .exited status → WIFEXITED status = true → w.childA ≠ .unborn →
      ∃ uses, Machine.collect step childAHandlings (.init q) acts =
        .acquired :: uses ++ [.released] ∧ ∀ u ∈ uses, u = .used := by
  have hkeep : ∀ s a t, WaitsHonest s a → (Reaping s ∧ ReapingA s ∧ Lineage s) →
      step s a = some t → Reaping t ∧ ReapingA t ∧ Lineage t := fun s a t hp hs ht =>
    ⟨hs.1.keep hp (moves_step ht), hs.2.1.keep hs.2.2 hp ht, hs.2.2.keep (moves_step ht)⟩
  have hinit : Reaping (.init q) ∧ ReapingA (.init q) ∧ Lineage (.init q) :=
    ⟨Reaping.init q, ReapingA.init q, Lineage.init q⟩
  obtain ⟨hrun, hsup, -⟩ := Machine.run_invariant hkeep hinit hw h
  have hsupervisor := Lifetime.after_collect supervisorHandlings supervisorLifetime hkeep
    (fun _ _ _ _ hs ht => supervisor_follow hs.1 ht) hinit rfl hw h
  have hchildA := Lifetime.after_collect childAHandlings childALifetime hkeep
    (fun _ _ _ _ hs ht => childA_follow hs.2.1 hs.2.2 ht) hinit rfl hw h
  refine ⟨⟨_, hsupervisor⟩, fun hpc hborn => ?_, ⟨_, hchildA⟩, fun status hpc hexited hborn => ?_⟩
  · have hreaped := (hrun.passed hborn).1.settled
    have hended : supervisorLifetime w = .ended := by
      simp [supervisorLifetime, hborn, hreaped, Runner.pastWait, hpc]
    exact Lifetime.after_eq_ended_iff.1 (hended ▸ hsupervisor)
  · have hreaped := hsup.settled hborn (by simp [hpc, SupervisorPc.shot, hexited])
    have hended : childALifetime w = .ended := by
      simp [childALifetime, hborn, hreaped, SupervisorPc.pastWait, hpc]
    exact Lifetime.after_eq_ended_iff.1 (hended ▸ hchildA)

theorem children_reaped_once_completed :
    ∃ uses, Machine.collect step supervisorHandlings (.init ⟨[], 1000, 0⟩) (completes 0) =
      .acquired :: uses ++ [.released] ∧ ∀ u ∈ uses, u = .used := by
  obtain ⟨w, hw, hpc, hborn⟩ : ∃ w, Runs ⟨[], 1000, 0⟩ (completes 0) w ∧
      w.runner.pc = .returned ∧ w.sup.pc ≠ .unborn := exists_run (by decide +kernel)
  exact (children_reaped_once hw (by decide +kernel)).2.1 hpc hborn

end OnlineJudge
