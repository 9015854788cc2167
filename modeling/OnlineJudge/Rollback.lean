import OnlineJudge.Removal
import OnlineJudge.Survivors
import OnlineJudge.Reaping

/-!
# Rolling back

Who removes the directory of the execution cgroup when an execution fails: the
supervisor on the paths where it calls `cleanupCgroup`, the runner in its two
cleanup routines. A `SetupFailed` makes the runner return without either, on the
assumption that the supervisor has seen to it.
-/

namespace OnlineJudge

variable {q : Request} {acts : List Act} {w w' : World} {x : Answer} {a : Act}

/-! ## What the host does -/

namespace RunnerPc

/-- The calls on the files and the directory of the cgroup. -/
def onCgroup : RunnerPc → Bool
  | openKill _ | writeKill _ | checkEmpty _ _ | lastCheck _ | accessCgroup _ | removeCgroup _ =>
    true
  | _ => false

/-- A message has arrived, and the runner goes by it. -/
def heard : RunnerPc → Bool
  | setup _ | receiveHeader | returned => false
  | killSupervisor site | waitSupervisor site | openKill site | writeKill site
  | checkEmpty site _ | lastCheck site | accessCgroup site | removeCgroup site => site.afterReady
  | _ => true

/-- A `SetupFailed` was taken, and what is left is to wait for the supervisor. -/
def relying : RunnerPc → Bool
  | reapFailed | finishSetupFailed => true
  | _ => false

end RunnerPc

/-- A call on a created cgroup fails. -/
def cgroupFails (w : World) : Act → Bool
  | .supervisor x => x.failsWith (fun _ => true) && w.sup.pc.onCgroup
  | .runner x => x.failsWith (fun _ => true) && w.runner.pc.onCgroup
  | _ => false

/-- At the runner's last look, a process of the cgroup that was killed has not
died. -/
def lingers (w : World) : Act → Bool
  | .runner _ =>
    (w.runner.pc matches .lastCheck _) &&
      (w.killed.childA && w.cgroup.hasA && w.childA.alive ||
        w.killed.childB && w.cgroup.hasB && w.childB.alive)
  | _ => false

/-- The calls on the cgroup succeed, what is killed dies, and waits are
answered. -/
def Obliging (w : World) (a : Act) : Prop :=
  cgroupFails w a = false ∧ lingers w a = false ∧ WaitsHonest w a

instance (w : World) (a : Act) : Decidable (Obliging w a) := by
  unfold Obliging; infer_instance

theorem Obliging.permitted (h : Obliging w a) : Permitted w a := by
  have hfail : ∀ (x : Answer) (p : Errno → Bool), x.failsWith p = true →
      x.failsWith (fun _ => true) = true := by
    intro x p hx
    cases x <;> simp_all [Answer.failsWith]
  have hok := h.1
  cases a with
  | supervisor x =>
    simp only [cgroupFails, Bool.and_eq_false_iff] at hok
    constructor
    · rcases hok with hx | hpc
      · have := hfail x permission
        simp only [cgroupRefused]
        grind -linarith
      · simp [cgroupRefused, hpc]
    · rcases hok with hx | hpc
      · have := hfail x (· = ENOENT)
        simp only [falselyMissing]
        grind -linarith
      · simp [falselyMissing, hpc]
  | _ => exact ⟨rfl, rfl⟩

attribute [grind =] RunnerPc.onCgroup RunnerPc.heard RunnerPc.relying

/-! ## Killed, and not replaced -/

/-- The supervisor forks and attaches nobody any more. -/
def Late (w : World) : Prop := w.sup.pc.phase = .started ∨ w.sup.pc.phase = .over

theorem Late.keep (h : Late w) (hl : Lineage w) (hm : Move w a w') : Late w' := by
  unfold Late at *
  cases hm with
  | runner hm =>
    rcases hm.sup with hs | ⟨⟨n, hpc⟩, -, -⟩
    · rw [hs]
      exact h
    · simp [hl.unforked ⟨n, hpc⟩, SupervisorPc.phase] at h
  | supervisor hm => cases hm.phases <;> simp_all
  | childA hm => rwa [hm.sup]
  | childB hm => rwa [hm.sup]
  | diedSupervisor => exact .inr rfl
  | _ => exact h

theorem Late.not_beforeCgroup (h : Late w) : w.sup.pc.beforeCgroup = false := by
  cases hpc : w.sup.pc <;> simp_all [Late, SupervisorPc.phase, SupervisorPc.beforeCgroup]

/-- Every live process of the cgroup was killed, and none is added. -/
structure Doomed (w : World) : Prop where
  late : Late w
  childA : w.cgroup.hasA = true → w.childA.alive = true → w.killed.childA = true
  childB : w.cgroup.hasB = true → w.childB.alive = true → w.killed.childB = true

namespace Doomed

theorem killCgroup (h : Late w) (r : Runner) : Doomed { w.killCgroup with runner := r } :=
  ⟨h, by simp +contextual [World.killCgroup], by simp +contextual [World.killCgroup]⟩

theorem supervisor (h : Doomed w) (hl : Lineage w) (hm : Supervisor.Move w x w') : Doomed w' := by
  have hlate := h.late.keep hl (.supervisor hm)
  obtain ⟨hold, hA, hB⟩ := h
  have hkilled : w.killed.childB = true → w'.killed.childB = true := by
    cases hm <;> grind -linarith
  refine ⟨hlate, ?_, ?_⟩
  · have hmono := hm.killed_mono
    unfold Late at hold
    cases hm.phases <;> grind -linarith
  · rw [hm.hasB, hm.childB]
    exact fun hb ha => hkilled (hB hb ha)

theorem childA_move (h : Doomed w) (hm : ChildA.Move w x w') : Doomed w' := by
  obtain ⟨hlate, hA, hB⟩ := h
  unfold Late at hlate
  cases hm with
  | released hpc => constructor <;> grind -linarith [Late]
  | @setupDone _ rest hpc => constructor <;> grind -linarith [Late]
  | forked hpc hk => constructor <;> grind -linarith [Late]
  | _ => constructor <;> grind -linarith [Late]

theorem keep (h : Doomed w) (hl : Lineage w) (hm : Move w a w') : Doomed w' := by
  have hlate := h.late.keep hl hm
  cases hm with
  | runner hm =>
    refine ⟨hlate, fun hc ha => hm.killed_mono.1 (h.childA ?_ ?_),
      fun hc hb => hm.killed_mono.2 (h.childB ?_ ?_)⟩
    · rwa [hm.hasA] at hc
    · rwa [hm.childA] at ha
    · rwa [hm.hasB] at hc
    · rwa [hm.childB] at hb
  | supervisor hm => exact h.supervisor hl hm
  | childA hm => exact h.childA_move hm
  | childB hm =>
    refine ⟨hlate, ?_, ?_⟩
    · rw [hm.cgroup, hm.childA, hm.killed]
      exact h.childA
    · rw [hm.cgroup, hm.killed]
      refine fun hc _ => h.childB hc ?_
      cases hm <;> grind -linarith
  | finished hpc => exact ⟨hlate, h.childA, by simp [ChildB.alive]⟩
  | diedA => exact ⟨hlate, by simp [ChildA.alive], h.childB⟩
  | diedB => exact ⟨hlate, h.childA, by simp [ChildB.alive]⟩
  | _ => exact ⟨hlate, h.childA, h.childB⟩

/-- What was killed has died by the last look. -/
theorem not_populated (h : Doomed w) (hx : lingers w (.runner x) = false)
    (hpc : ∃ site, w.runner.pc = .lastCheck site) : w.populated = false := by
  obtain ⟨site, hpc⟩ := hpc
  obtain ⟨-, hA, hB⟩ := h
  simp only [lingers, hpc, Bool.true_and] at hx
  simp only [World.populated]
  grind -linarith

end Doomed

/-! ## First words -/

/-- Nobody speaks before Child A was released, or the supervisor gave up. -/
structure Spoken (w : World) : Prop where
  late : w.toRunner.sent ≠ [] → Late w
  heard : w.runner.pc.heard = true → w.toRunner.taken ≠ []

theorem Spoken.late_of_heard (h : Spoken w) (hpc : w.runner.pc.heard = true) : Late w := by
  refine h.late fun hs => h.heard hpc ?_
  exact (List.append_eq_nil_iff.1 hs).1

theorem Spoken.keep (h : Spoken w) (hl : Lineage w) (hm : Move w a w') : Spoken w' := by
  obtain ⟨hlate, hheard⟩ := h
  have hold : Late w → Late w' := fun h => h.keep hl hm
  cases hm with
  | runner hm =>
    refine ⟨fun hs => hold (hlate (by rwa [hm.toRunner_sent] at hs)), ?_⟩
    clear hold hlate hl
    cases hm with
    | got site hlen =>
      cases site with
      | header =>
        have hne : w.toRunner.pending.take headerSize ≠ [] := by
          rintro hn
          simp [List.take_eq_nil_iff, headerSize] at hn
          simp [hn, headerSize] at hlen
        intro _
        simp [Channel.take, hne]
      | payload hpc | loopHeader hpc | setupFailed hpc | terminated hpc =>
        have hne := hheard (by simp [hpc, RunnerPc.heard])
        intro _
        simp [hne]
    | lost site => cases site <;> grind -linarith
    | sent site | sendFailed site => cases site <;> grind -linarith
    | waited site | waitFailed site =>
      cases site with
      | @cleanup site => rcases site with _ | _ | _ | _ <;> grind -linarith
      | _ => grind -linarith
    | @killFailed _ site | @foundEmpty site | @foundPopulated _ site | @removeSkipped _ site
    | @removed site | @removeFailed _ site =>
      rcases site with _ | _ | _ | _ <;> grind -linarith
    | _ => grind -linarith
  | supervisor hm =>
    have hr := hm.runner
    have htaken : w'.toRunner.taken = w.toRunner.taken := by cases hm <;> rfl
    refine ⟨fun hs => hold ?_, by rw [hr, htaken]; exact hheard⟩
    cases hm with
    | @sent caller _ _ hpc => cases caller <;> simp [Late, hpc, SupervisorPc.phase]
    | waitedA site | waitAFailed site => cases site <;> exact hlate hs
    | _ => exact hlate hs
  | childA hm =>
    have hr := hm.runner
    have htaken : w'.toRunner.taken = w.toRunner.taken := by cases hm <;> rfl
    refine ⟨fun hs => hold ?_, by rw [hr, htaken]; exact hheard⟩
    cases hm with
    | toldControl hpc =>
      have hreleased : w.released ≠ false := fun hr => by
        rcases (hl.waiting hr).1 with hA | hA | ⟨s, hA⟩ <;> simp [hA] at hpc
      have hbefore : w.sup.pc.phase ≠ .before := fun hp => hreleased (hl.held (.inl hp))
      have hattaching : w.sup.pc.phase ≠ .attaching := fun hp => hreleased (hl.held (.inr hp))
      unfold Late
      cases hp : w.sup.pc.phase <;> simp_all
    | _ => exact hlate hs
  | childB hm =>
    refine ⟨?_, by rw [hm.runner, hm.toRunner]; exact hheard⟩
    rw [hm.toRunner]
    exact fun hs => hold (hlate hs)
  | _ => exact ⟨fun hs => hold (hlate hs), hheard⟩

/-! ## The runner's cleanup -/

/-- Killing the cgroup finds no directory, or does it. -/
theorem Runner.kill_step {site : Cleanup}
    (hpc : w.runner.pc = .openKill site ∨ w.runner.pc = .writeKill site)
    (hx : ∀ e, x ≠ .fail e) (ht : Runner.step w x = some w') :
    w.cgroup.present = false ∧ w'.cgroup = w.cgroup ∧ w'.sup = w.sup ∧
        (w'.runner = w.runner.go (.checkEmpty site 0) ∨ w'.runner = w.runner.contained false site) ∨
      w' = { w with runner := w.runner.go (.writeKill site) } ∨
      w' = { w.killCgroup with runner := w.runner.go (.checkEmpty site 0) } := by
  rcases hpc with hpc | hpc <;> simp only [Runner.step, hpc] at ht
  · cases x with
    | ok =>
      simp only [Runner.openKill, Option.some.injEq] at ht
      subst ht
      cases hp : w.cgroup.present with
      | true => exact .inr (.inl (by simp))
      | false => exact .inl (by simp)
    | fail e => exact absurd rfl (hx e)
    | _ => simp [Runner.openKill] at ht
  · cases x with
    | ok =>
      simp only [Runner.writeKill] at ht
      split at ht <;> cases ht
      · exact .inr (.inr rfl)
      · rename_i hp
        exact .inl (by simpa using hp)
    | fail e => exact absurd rfl (hx e)
    | _ => simp [Runner.writeKill] at ht

/-- Looking for the directory and removing it leaves none. -/
theorem Runner.removal_step {site : Cleanup}
    (hpc : w.runner.pc = .accessCgroup site ∨ w.runner.pc = .removeCgroup site)
    (hx : ∀ e, x ≠ .fail e) (ht : Runner.step w x = some w') :
    w'.sup = w.sup ∧ (w'.runner = w.runner.go (.removeCgroup site) ∨
      w'.cgroup.present = false ∧ w'.runner = w.runner.endCleanup site) := by
  rcases hpc with hpc | hpc <;> simp only [Runner.step, hpc] at ht
  · cases x with
    | ok =>
      simp only [Runner.accessCgroup, Option.some.injEq] at ht
      subst ht
      cases hp : w.cgroup.present with
      | true => exact ⟨rfl, .inl (by simp)⟩
      | false => exact ⟨rfl, .inr (by simp)⟩
    | fail e => exact absurd rfl (hx e)
    | _ => simp [Runner.accessCgroup] at ht
  · cases x with
    | ok =>
      simp only [Runner.removeCgroup] at ht
      split at ht <;> cases ht
      exact ⟨rfl, .inr ⟨rfl, rfl⟩⟩
    | fail e => exact absurd rfl (hx e)
    | _ => simp [Runner.removeCgroup] at ht

/-- What the runner may rely on: `removed` that the directory is gone, `idle`
that the supervisor was never forked. -/
structure Swept (removed idle : Prop) (r : Runner) : Prop where
  missed : r.containment_failed = true → removed
  checked : ∀ use, r.pc = .killSupervisor (.afterFailure use) ∨
      r.pc = .waitSupervisor (.afterFailure use) →
    r.containment_failed = true ∨ r.execution_contained = true
  returned : r.pc = .returned → removed ∨ idle

namespace Swept

section
variable {removed removed' idle idle' : Prop} {r : Runner} {site : Cleanup} {use : CleanupUse}

theorem mono (h : Swept removed idle r) (hr : removed → removed') (hi : idle → idle') :
    Swept removed' idle' r :=
  ⟨fun hm => hr (h.missed hm), h.checked, fun hpc => (h.returned hpc).imp hr hi⟩

theorem endCleanup (hr : removed) : Swept removed idle (r.endCleanup site) := by
  rcases site with _ | _ | _ | _ <;> constructor <;> grind -linarith

theorem afterReap (hreaped : r.cleanup_reaped = true) (hm : r.containment_failed = true → removed)
    (ha : r.containment_failed = true ∨ r.execution_contained = true) :
    Swept removed idle (r.afterReap use) := by
  unfold Runner.afterReap
  split
  · exact ⟨hm, by simp [Runner.go], nofun⟩
  · rename_i hno
    rw [hreaped, Bool.true_and] at hno
    exact endCleanup (hm (ha.resolve_right hno))

theorem afterContain (hm : r.containment_failed = true → removed)
    (ha : r.containment_failed = true ∨ r.execution_contained = true) :
    Swept removed idle (r.afterContain use) := by
  unfold Runner.afterContain
  split
  · rename_i hreaped
    exact afterReap hreaped hm ha
  · exact ⟨hm, fun _ _ => ha, nofun⟩

theorem contained_true (hm : r.containment_failed = true → removed) :
    Swept removed idle (r.contained true site) := by
  rcases site with unexpected | use
  · exact ⟨hm, by simp [Runner.contained, Runner.go], nofun⟩
  · exact afterContain (by exact hm) (.inr rfl)

theorem contained_false (hr : removed) : Swept removed idle (r.contained false site) := by
  rcases site with unexpected | use
  · simp only [Runner.contained, Bool.false_eq_true, if_false]
    exact endCleanup hr
  · exact afterContain (fun _ => hr) (.inl rfl)

theorem cleanupWaited (hm : r.containment_failed = true → removed)
    (ha : ∀ use, site = .afterFailure use →
      r.containment_failed = true ∨ r.execution_contained = true) :
    Swept removed idle (r.cleanupWaited true site) := by
  rcases site with unexpected | use
  · exact ⟨hm, by simp [Runner.cleanupWaited, Runner.go], nofun⟩
  · exact afterReap rfl (by exact hm) (ha use rfl)

end

/-- Calls on the cgroup succeed, and so do waits. -/
theorem runner (h : Swept (Removed w) (w.sup.pc = .unborn) w.runner) (hl : Lineage w)
    (hord : w.runner.Ordered) (hfin : w.runner.submission_finished = true → Removed w)
    (hx : w.runner.pc.onCgroup = true → ∀ e, x ≠ .fail e)
    (hempty : ∀ site, w.runner.pc = .lastCheck site → Removed w ∨ w.populated = false)
    (hlate : w.runner.pc.onCgroup = true → Late w)
    (hunreaped : w.runner.pc.waits = true → w.reaped.supervisor = false)
    (hwaits : WaitsHonest w (.runner x))
    (hrely : w.runner.pc.relying = true → (∃ s, w.sup.pc = .exited s) → Removed w)
    (ht : Runner.step w x = some w') :
    Swept (Removed w') (w'.sup.pc = .unborn) w'.runner := by
  have hm := Runner.moves ht
  have hkeep : Removed w → Removed w' := fun hr => hr.keep hl (.runner hm)
  obtain ⟨hmissed, hchecked, hreturned⟩ := h
  replace hmissed := fun hc => hkeep (hmissed hc)
  by_cases hkill : ∃ site, w.runner.pc = .openKill site ∨ w.runner.pc = .writeKill site
  · obtain ⟨site, hpc⟩ := hkill
    have hon : w.runner.pc.onCgroup = true := by rcases hpc with hpc | hpc <;> rw [hpc] <;> rfl
    rcases Runner.kill_step hpc (hx hon) ht with ⟨hp, hc, hs, hr⟩ | rfl | rfl
    · have hbefore := (hlate hon).not_beforeCgroup
      have hremoved : Removed w' := ⟨by rw [hc]; exact hp, by rw [hs]; exact hbefore⟩
      rcases hr with hr | hr <;> rw [hr]
      · exact ⟨hmissed, by simp [Runner.go], nofun⟩
      · exact contained_false hremoved
    · exact ⟨hmissed, by simp [Runner.go], nofun⟩
    · exact ⟨hmissed, by simp [Runner.go], nofun⟩
  by_cases hremove : ∃ site, w.runner.pc = .accessCgroup site ∨ w.runner.pc = .removeCgroup site
  · obtain ⟨site, hpc⟩ := hremove
    have hon : w.runner.pc.onCgroup = true := by rcases hpc with hpc | hpc <;> rw [hpc] <;> rfl
    obtain ⟨hs, hr | ⟨hp, hr⟩⟩ := Runner.removal_step hpc (hx hon) ht
    · rw [hr]
      exact ⟨hmissed, by simp [Runner.go], nofun⟩
    · have hbefore := (hlate hon).not_beforeCgroup
      have hremoved : Removed w' := ⟨hp, by rw [hs]; exact hbefore⟩
      rw [hr]
      exact endCleanup hremoved
  have hcleanup (site : Cleanup) (hpc : w.runner.pc = .waitSupervisor site) :
      Swept (Removed w') (w'.sup.pc = .unborn) (w.runner.cleanupWaited true site) :=
    cleanupWaited hmissed fun use hs => hchecked use (.inr (by rw [hpc, hs]))
  have hsetup := hl.unforked
  replace hfin := fun hf => hkeep (hfin hf)
  replace hrely := fun hpc hs => hkeep (hrely hpc hs)
  cases hm with
  | setupFailed hpc =>
    exact ⟨hmissed, nofun, fun _ => .inr (hsetup ⟨_, hpc⟩)⟩
  | waited site hs =>
    cases site with
    | reapFailed hpc | setupFailed hpc =>
      have hremoved := hrely (by rw [hpc]; rfl) ⟨_, hs⟩
      exact ⟨hmissed, by simp [Runner.sandboxFailed, Runner.giveStatus, Runner.give],
        fun _ => .inl hremoved⟩
    | terminated hpc =>
      clear hrely hempty hlate hwaits hx
      constructor <;> grind -linarith
    | loop hpc => exact absurd hpc hord.reaping
    | cleanup hpc => exact hcleanup _ hpc
  | waitFailed site hfail =>
    -- the kernel does not fail a wait for a child that was not reaped
    have hpc := Passed.waits_of_site site
    have hno := hunreaped hpc
    rcases hfail with ⟨e, rfl, he⟩ | ⟨-, hr⟩
    · exact absurd (hwaits hpc hno) he
    · rw [hno] at hr
      cases hr
  | foundEmpty hpc => exact contained_true hmissed
  | @foundPopulated _ site hpc hfound =>
    have hon : w.runner.pc.onCgroup = true := by rw [hpc]; rfl
    have hremoved : Removed w := by
      rcases hempty site hpc with hr | hpop
      · exact hr
      · refine ⟨?_, (hlate hon).not_beforeCgroup⟩
        cases x with
        | ok => simpa [Runner.uncontained, hpc, hpop] using hfound
        | fail e => exact absurd rfl (hx hon e)
        | _ => simp [Runner.step, hpc, Runner.lastCheck, Runner.isExecutionCgroupEmpty] at ht
    exact contained_false (hkeep hremoved)
  | killDenied hpc => exact absurd ⟨_, hpc⟩ hkill
  | killFailed hpc => exact absurd ⟨_, hpc⟩ hkill
  | openedKill hpc => exact absurd ⟨_, .inl hpc⟩ hkill
  | killWritten hpc => exact absurd ⟨_, .inr hpc⟩ hkill
  | accessed hpc => exact absurd ⟨_, .inl hpc⟩ hremove
  | removeSkipped hpc => exact absurd ⟨_, hpc⟩ hremove
  | removed hpc => exact absurd ⟨_, .inr hpc⟩ hremove
  | removeFailed hpc => exact absurd ⟨_, .inr hpc⟩ hremove
  | got site | lost site =>
    clear hrely hempty hlate hwaits hx hkill hremove hcleanup ht hl hord hunreaped hsetup hkeep hfin
      hchecked hreturned
    cases site <;> constructor <;> grind -linarith
  | sent site | sendFailed site =>
    clear hrely hempty hlate hwaits hx hkill hremove hcleanup ht hl hord hunreaped hsetup hkeep hfin
      hchecked hreturned
    cases site <;> constructor <;> grind -linarith
  | again => exact ⟨hmissed, hchecked, hreturned⟩
  | _ =>
    clear hrely hempty hlate hwaits hx hkill hremove hcleanup ht hl hord hunreaped hsetup hkeep
      hreturned
    constructor <;> grind -linarith

end Swept

/-- A supervisor that was reaped has ended, and stays so. -/
theorem exited_of_reaped_keep (h : w.reaped.supervisor = true → ∃ s, w.sup.pc = .exited s)
    (hl : Lineage w) (hm : Move w a w') (hr : w'.reaped.supervisor = true) :
    ∃ s, w'.sup.pc = .exited s := by
  have hquiet (hs : w'.sup = w.sup) (hr' : w'.reaped.supervisor = w.reaped.supervisor) :
      ∃ s, w'.sup.pc = .exited s := by
    rw [hs]
    exact h (hr' ▸ hr)
  cases hm with
  | runner hm =>
    cases hm with
    | waited _ hs => exact ⟨_, hs⟩
    | cleanupReaped _ hs => exact ⟨_, hs⟩
    | forked hpc =>
      obtain ⟨s, hs⟩ := h hr
      simp [hl.unforked ⟨_, hpc⟩] at hs
    | _ => exact h hr
  | supervisor hm =>
    obtain ⟨s, hs⟩ := h (hm.reaped_supervisor ▸ hr)
    rcases hm.eq_or_alive with rfl | ha
    · exact ⟨s, hs⟩
    · simp [Supervisor.alive, hs] at ha
  | childA hm => exact hquiet hm.sup (by cases hm <;> rfl)
  | childB hm => exact hquiet hm.sup (by rw [hm.reaped])
  | diedSupervisor => exact ⟨_, rfl⟩
  | _ => exact h hr

/-- A runner that is on the cgroup has heard of Child A, or has reaped the
supervisor. -/
theorem late_of_onCgroup (hspoken : Spoken w) (hreaping : Reaping w)
    (hexited : w.reaped.supervisor = true → ∃ s, w.sup.pc = .exited s)
    (hon : w.runner.pc.onCgroup = true) : Late w := by
  by_cases hready : w.runner.pc.heard = true
  · exact hspoken.late_of_heard hready
  · have hne : w.sup.pc ≠ .unborn := by
      intro hu
      obtain ⟨-, -, -, ⟨n, hpc⟩ | hpc⟩ := hreaping.unborn hu <;>
        simp [hpc, RunnerPc.onCgroup] at hon
    have hpast : w.runner.pastWait = true := by
      cases hpc : w.runner.pc <;>
        simp_all [RunnerPc.onCgroup, RunnerPc.heard, Runner.pastWait]
    obtain ⟨s, hs⟩ := hexited ((hreaping.passed hne).1.settled.trans hpast)
    exact .inr (by rw [hs]; rfl)

/-- What a run keeps whose host obliges. -/
structure Rollback (w : World) : Prop where
  tidy : Tidy w
  reaping : Reaping w
  exited : w.reaped.supervisor = true → ∃ s, w.sup.pc = .exited s
  spoken : Spoken w
  doomed : ∀ site, (∃ tries, w.runner.pc = .checkEmpty site tries) ∨
    w.runner.pc = .lastCheck site → Removed w ∨ Doomed w
  swept : Swept (Removed w) (w.sup.pc = .unborn) w.runner

namespace Rollback

theorem late (h : Rollback w) (hon : w.runner.pc.onCgroup = true) : Late w :=
  late_of_onCgroup h.spoken h.reaping h.exited hon

theorem unreaped (h : Rollback w) (hpc : w.runner.pc.waits = true) :
    w.reaped.supervisor = false := by
  by_cases hu : w.sup.pc = .unborn
  · exact (h.reaping.unborn hu).1
  · exact (h.reaping.passed hu).1.unreaped (.inl hpc)

/-- The files of the cgroup are only read after the kill. -/
theorem checks_of_runner {site : Cleanup} (hm : Runner.Move w x w')
    (hpc : (∃ tries, w'.runner.pc = .checkEmpty site tries) ∨ w'.runner.pc = .lastCheck site)
    (hkill : ¬ ∃ site, w.runner.pc = .openKill site ∨ w.runner.pc = .writeKill site) :
    (∃ tries, w.runner.pc = .checkEmpty site tries) ∨ w.runner.pc = .lastCheck site := by
  cases hm with
  | got site | lost site => cases site <;> grind -linarith
  | sent site | sendFailed site => cases site <;> grind -linarith
  | waited site | waitFailed site =>
    cases site with
    | @cleanup site => rcases site with _ | _ | _ | _ <;> grind -linarith
    | _ => grind -linarith
  | @killFailed _ site | @foundEmpty site | @foundPopulated _ site | @removeSkipped _ site
  | @removed site | @removeFailed _ site =>
    rcases site with _ | _ | _ | _ <;> grind -linarith
  | _ => grind -linarith

theorem doomed_keep (h : Rollback w) (ho : Obliging w a) (ht : step w a = some w')
    (site : Cleanup)
    (hpc : (∃ tries, w'.runner.pc = .checkEmpty site tries) ∨ w'.runner.pc = .lastCheck site) :
    Removed w' ∨ Doomed w' := by
  have hm := moves_step ht
  have hl := h.tidy.lineage
  have hkeep (hold : Removed w ∨ Doomed w) : Removed w' ∨ Doomed w' :=
    hold.imp (fun hr => hr.keep hl hm) fun hd => hd.keep hl hm
  rcases hm.runner_cases with ⟨x, rfl, hrun⟩ | hr
  · by_cases hkill : ∃ site, w.runner.pc = .openKill site ∨ w.runner.pc = .writeKill site
    · obtain ⟨site, hat⟩ := hkill
      have hon : w.runner.pc.onCgroup = true := by rcases hat with hat | hat <;> rw [hat] <;> rfl
      have hlate := h.late hon
      have hx : ∀ e, x ≠ .fail e := by
        rintro e rfl
        simpa [cgroupFails, Answer.failsWith, hon] using ho.1
      rcases Runner.kill_step hat hx ht with ⟨hp, hc, hs, -⟩ | rfl | rfl
      · exact .inl ⟨by rw [hc]; exact hp, by rw [hs]; exact hlate.not_beforeCgroup⟩
      · simp [Runner.go] at hpc
      · exact .inr (.killCgroup hlate _)
    · exact hkeep (h.doomed site (checks_of_runner hrun hpc hkill))
  · rw [hr] at hpc
    exact hkeep (h.doomed site hpc)

/-- The wait after a `SetupFailed` finds the directory gone. -/
def Kept (w : World) : Prop :=
  w.runner.pc.relying = true → (∃ s, w.sup.pc = .exited s) → Removed w

theorem keep (h : Rollback w) (ho : Obliging w a) (hrely : Kept w) (ht : step w a = some w') :
    Rollback w' := by
  have hm := moves_step ht
  have hl := h.tidy.lineage
  refine ⟨h.tidy.keep ho.permitted hm, h.reaping.keep ho.2.2 hm,
    exited_of_reaped_keep h.exited hl hm, h.spoken.keep hl hm, h.doomed_keep ho ht, ?_⟩
  have hkeep : Removed w → Removed w' := fun hr => hr.keep hl hm
  cases hm with
  | runner hm =>
    refine h.swept.runner hl h.reaping.ordered h.tidy.credited.finished ?_ ?_ h.late h.unreaped
      ho.2.2 hrely ht
    · rintro hon e rfl
      simpa [cgroupFails, Answer.failsWith, hon] using ho.1
    · exact fun site hpc => (h.doomed site (.inr hpc)).imp_right fun hd =>
        hd.not_populated ho.2.1 ⟨site, hpc⟩
  | supervisor hm =>
    rw [hm.runner]
    refine h.swept.mono hkeep fun hu => ?_
    rcases hm.eq_or_alive with rfl | ha
    · exact hu
    · simp [Supervisor.alive, hu] at ha
  | childA hm => rw [hm.runner]; exact h.swept.mono hkeep (by rw [hm.sup]; exact id)
  | childB hm => rw [hm.runner]; exact h.swept.mono hkeep (by rw [hm.sup]; exact id)
  | diedSupervisor _ ha =>
    exact h.swept.mono hkeep fun hu => by simp [Supervisor.alive, hu] at ha
  | _ => exact h.swept.mono hkeep id

theorem init (q : Request) : Rollback (.init q) :=
  ⟨Tidy.init q, Reaping.init q, nofun, ⟨fun hs => absurd rfl hs, nofun⟩,
    by simp [World.init], ⟨nofun, by simp [World.init], nofun⟩⟩

end Rollback

/-! ## Nobody's directory -/

namespace SupervisorPc

/-- On the way out without a `cleanupCgroup`: a failed `setupCgroup` or `mkdtemp`,
and `cleanup_supervisor_failure`. -/
def abandoning : SupervisorPc → Bool
  | send .prepare _ | openKill .failure | writeKill .failure | failureKill | failureWait => true
  | _ => false

end SupervisorPc

attribute [grind =] SupervisorPc.abandoning

/-- The supervisor leaves the directory to the runner. -/
def abandons (w : World) : Bool := w.sup.pc.abandoning && w.cgroup.present

/-- The runner leaves the directory to the supervisor. -/
def relies (w : World) : Bool := w.runner.pc.relying

/-- A supervisor that ends was on its way out, or has forgotten the path. -/
theorem Supervisor.Move.exits (hm : Supervisor.Move w x w')
    (htell : w.sup.pc.telling = true → w.sup.cgroup_path = false)
    (hremove : w.sup.pc.onCgroup = true → ∀ e, x ≠ .fail e) (h : ∃ s, w'.sup.pc = .exited s) :
    (∃ s, w.sup.pc = .exited s) ∨ w.sup.pc.abandoning = true ∨ w'.sup.cgroup_path = false := by
  cases hm with
  | gotControl =>
    rcases w.sup.handleControl_cases
      (.ofBytes (w.toSup.pending.take headerSize)) with he | ⟨he, -⟩ | ⟨he, -⟩ | ⟨he, -⟩ <;>
      grind -linarith
  | @gotStatus r => cases r <;> grind -linarith
  | waitedA site | waitAFailed site => cases site <;> grind -linarith
  | @removeFailed caller retries e hpc =>
    exact absurd rfl (hremove (by rw [hpc]; rfl) e)
  | @sent caller | @sendFailed _ caller | @openedKill caller | @killWritten caller
  | @killDenied _ caller | @killFailed _ caller | @removed caller | @removeBusy caller
  | @removeDenied caller =>
    cases caller <;> grind -linarith
  | _ => grind -linarith

/-- A supervisor that does not leave the directory behind has removed it when it
ends by itself; only a cleanup of the runner kills it. -/
structure Dutiful (w : World) : Prop where
  unkilled : w.runner.pc.watching = true → w.killed.supervisor = false
  dutiful : (∃ s, w.sup.pc = .exited s) → w.killed.supervisor = false → Removed w

namespace Dutiful

theorem kept (h : Dutiful w) : Rollback.Kept w := fun hrely hs =>
  h.dutiful hs (h.unkilled (by
    cases hpc : w.runner.pc <;> simp_all [RunnerPc.relying, RunnerPc.watching]))

theorem keep (h : Dutiful w) (hr : Rollback w) (ho : Obliging w a) (hn : abandons w = false)
    (ht : step w a = some w') (hr' : Rollback w') : Dutiful w' := by
  have hm := moves_step ht
  have hkeep : Removed w → Removed w' := fun hr0 => hr0.keep hr.tidy.lineage hm
  obtain ⟨hun, hdut⟩ := h
  have hquiet (hrun : w'.runner = w.runner) (hs : w'.sup = w.sup) (hk : w'.killed = w.killed) :
      Dutiful w' := by
    refine ⟨by rw [hrun, hk]; exact hun, ?_⟩
    rw [hs, hk]
    exact fun he hk => hkeep (hdut he hk)
  cases hm with
  | runner hm =>
    refine ⟨fun hw => ?_, fun ⟨s, hs⟩ hk => hkeep (hdut ?_ ?_)⟩
    · obtain ⟨hw, hk, -⟩ := hm.watching hw
      rw [hk]
      exact hun hw
    · rcases hm.sup with he | ⟨-, -, he⟩
      · exact ⟨s, by rw [← he]; exact hs⟩
      · simp [he, Supervisor.go] at hs
    · cases hm <;> simp_all [World.killCgroup]
  | @supervisor x _ hm =>
    have hk : w'.killed.supervisor = w.killed.supervisor := by cases hm <;> rfl
    refine ⟨by rw [hm.runner, hk]; exact hun, fun he hk' => ?_⟩
    have hx (hon : w.sup.pc.onCgroup = true) (e : Errno) : x ≠ .fail e := by
      rintro rfl
      simpa [cgroupFails, Answer.failsWith, hon] using ho.1
    rcases hm.exits hr.tidy.accounted.telling hx he with he | hab | hpath
    · exact hkeep (hdut he (hk ▸ hk'))
    · refine hkeep ⟨by simpa [abandons, hab] using hn, ?_⟩
      cases hpc : w.sup.pc <;> simp_all [SupervisorPc.abandoning, SupervisorPc.beforeCgroup]
    · obtain ⟨s, hs⟩ := he
      exact ⟨hr'.tidy.accounted.path hpath, by rw [hs]; rfl⟩
  | childA hm => exact hquiet hm.runner hm.sup hm.killed
  | childB hm => exact hquiet hm.runner hm.sup hm.killed
  | diedSupervisor hk => exact ⟨hun, fun _ hk' => by simp [hk] at hk'⟩
  | _ => exact hquiet rfl rfl rfl

theorem init (q : Request) : Dutiful (.init q) := ⟨fun _ => rfl, by simp [World.init]⟩

end Dutiful

/-- Unless each leaves it to the other, one of the two removes the directory. -/
theorem rollback_reach (h : Runs q acts w) (ho : Machine.Along step Obliging (.init q) acts)
    (hn : ¬ (Machine.Sometime step (fun s _ => abandons s = true) (.init q) acts ∧
      Machine.Sometime step (fun s _ => relies s = true) (.init q) acts)) : Rollback w := by
  rcases Classical.not_and_iff_not_or_not.1 hn with hab | hre
  · refine (Machine.run_invariant (I := fun s => Rollback s ∧ Dutiful s)
      (fun s a t hp ⟨hr, hd⟩ ht => ?_) ⟨.init q, .init q⟩
      (ho.and (Machine.along_not_of_not_sometime hab)) h).1
    have hr' := hr.keep hp.1 hd.kept ht
    exact ⟨hr', hd.keep hr hp.1 (by simpa using hp.2) ht hr'⟩
  · refine Machine.run_invariant (fun s a t hp hr ht => hr.keep hp.1 ?_ ht) (.init q)
      (ho.and (Machine.along_not_of_not_sometime hre)) h
    intro hrely
    exact absurd hrely hp.2

/-! ## Left behind -/

/-- The runner cleans up, or has returned. -/
def Cornered (w : World) : Prop := w.runner.pc.site ≠ none ∨ w.runner.pc = .returned

/-- It has taken a `SetupFailed`, and does not clean up. -/
def Trusting (w : World) : Prop := w.runner.pc.relying = true ∨ w.runner.pc = .returned

theorem Cornered.keep (h : Cornered w) (hm : Move w a w') : Cornered w' := by
  unfold Cornered at *
  rcases hm.runner_cases with ⟨x, rfl, hrun⟩ | hr
  · cases hrun with
    | got site | lost site => cases site <;> grind -linarith
    | sent site | sendFailed site => cases site <;> grind -linarith
    | waited site | waitFailed site =>
      cases site with
      | @cleanup site => rcases site with _ | _ | _ | _ <;> grind -linarith
      | _ => grind -linarith
    | @killFailed _ site | @foundEmpty site | @foundPopulated _ site | @removeSkipped _ site
    | @removed site | @removeFailed _ site =>
      rcases site with _ | _ | _ | _ <;> grind -linarith
    | _ => grind -linarith
  · rwa [hr]

theorem Trusting.keep (h : Trusting w) (hm : Move w a w') : Trusting w' := by
  unfold Trusting at *
  rcases hm.runner_cases with ⟨x, rfl, hrun⟩ | hr
  · cases hrun with
    | got site | lost site => cases site <;> grind -linarith
    | sent site | sendFailed site => cases site <;> grind -linarith
    | waited site | waitFailed site =>
      cases site with
      | @cleanup site => rcases site with _ | _ | _ | _ <;> grind -linarith
      | _ => grind -linarith
    | @killFailed _ site | @foundEmpty site | @foundPopulated _ site | @removeSkipped _ site
    | @removed site | @removeFailed _ site =>
      rcases site with _ | _ | _ | _ <;> grind -linarith
    | _ => grind -linarith
  · rwa [hr]

/-- The supervisor has left the directory behind. -/
def Forsaken (w : World) : Prop :=
  w.cgroup.present = true ∧ (w.sup.pc.abandoning = true ∨ ∃ s, w.sup.pc = .exited s)

theorem Forsaken.keep (h : Forsaken w) (hl : Lineage w) (hsite : w.runner.pc.site = none)
    (hm : Move w a w') : Forsaken w' := by
  obtain ⟨hp, hs⟩ := h
  cases hm with
  | runner hm =>
    refine ⟨?_, ?_⟩
    · cases hm with
      | removed hpc => simp [hpc, RunnerPc.site] at hsite
      | _ => exact hp
    · rcases hm.sup with he | ⟨hsetup, -, -⟩
      · rwa [he]
      · rw [hl.unforked hsetup] at hs
        rcases hs with hs | ⟨s, hs⟩ <;> cases hs
  | supervisor hm =>
    clear hl hsite
    unfold Forsaken
    cases hm with
    | gotControl => grind -linarith
    | @gotStatus r => cases r <;> grind -linarith
    | waitedA site | waitAFailed site => cases site <;> grind -linarith
    | @sent caller | @sendFailed _ caller | @openedKill caller | @killWritten caller
    | @killDenied _ caller | @killFailed _ caller | @removed caller | @removeBusy caller
    | @removeDenied caller | @removeFailed caller =>
      cases caller <;> grind -linarith
    | _ => grind -linarith
  | childA hm =>
    refine ⟨?_, by rwa [hm.sup]⟩
    cases hm <;> exact hp
  | childB hm => exact ⟨by rwa [hm.cgroup], by rwa [hm.sup]⟩
  | diedSupervisor => exact ⟨hp, .inr ⟨_, rfl⟩⟩
  | _ => exact ⟨hp, hs⟩

theorem Cornered.never_relies (h : Cornered w) :
    ¬ Machine.Sometime step (fun s _ => relies s = true) w acts := by
  induction acts generalizing w with
  | nil => exact id
  | cons a acts ih =>
    rintro (hr | ⟨t, ht, hr⟩)
    · rcases h with h | h
      · cases hpc : w.runner.pc <;> simp_all [relies, RunnerPc.relying, RunnerPc.site]
      · simp [relies, h, RunnerPc.relying] at hr
    · exact ih (h.keep (moves_step ht)) hr

/-- A runner that takes a `SetupFailed` cleans up neither before nor after. -/
theorem calm_of_relies (h : Machine.Sometime step (fun s _ => relies s = true) w acts) :
    Machine.Along step (fun s _ => s.runner.pc.site = none) w acts := by
  induction acts generalizing w with
  | nil => exact trivial
  | cons a acts ih =>
    have hcalm : w.runner.pc.site = none := by
      by_contra hne
      exact Cornered.never_relies (.inl hne) h
    rcases h with hr | ⟨t, ht, hr⟩
    · refine (Machine.along_keeps (fun s a t hs ht => hs.keep (moves_step ht))
        (show Trusting w from .inl hr)).mono fun s _ hs => ?_
      rcases hs with hs | hs
      · cases hpc : s.runner.pc <;> simp_all [RunnerPc.relying, RunnerPc.site]
      · simp [hs, RunnerPc.site]
    · refine ⟨hcalm, fun t' ht' => ih ?_⟩
      rw [ht] at ht'
      cases ht'
      exact hr

/-- Where both leave it to the other, nobody removes the directory. -/
theorem forsaken_of_both (h : Runs q acts w)
    (hab : Machine.Sometime step (fun s _ => abandons s = true) (.init q) acts)
    (hre : Machine.Sometime step (fun s _ => relies s = true) (.init q) acts) : Forsaken w := by
  have hlineage : Machine.Along step (fun s _ => Lineage s) (.init q) acts :=
    Machine.along_keeps (fun _ _ _ hs ht => hs.keep (moves_step ht)) (Lineage.init q)
  refine Machine.run_of_sometime (fun s _ _ hs => ?_)
    (fun s _ t hq hs ht => hs.keep hq.1 hq.2 (moves_step ht)) hab
    (hlineage.and (calm_of_relies hre)) h
  simp only [abandons, Bool.and_eq_true] at hs
  exact ⟨hs.2, .inl hs.1⟩

/-- When `run` returns, the directory is gone if and only if the supervisor and
the runner have not each left it to the other: the supervisor on a way out
without `cleanupCgroup`, the runner after a `SetupFailed`. -/
theorem rolled_back_iff (h : Runs q acts w) (ho : Machine.Along step Obliging (.init q) acts)
    (hpc : w.runner.pc = .returned) :
    w.cgroup.present = false ↔
      ¬ (Machine.Sometime step (fun s _ => abandons s = true) (.init q) acts ∧
        Machine.Sometime step (fun s _ => relies s = true) (.init q) acts) := by
  constructor
  · rintro hgone ⟨hab, hre⟩
    have hleft := (forsaken_of_both h hab hre).1
    rw [hgone] at hleft
    cases hleft
  · intro hn
    have hr := rollback_reach h ho hn
    rcases hr.swept.returned hpc with hremoved | hu
    · exact hremoved.1
    · exact hr.tidy.accounted.path (hr.tidy.accounted.early (by rw [hu]; rfl))

/-- A pipe of the supervisor cannot be made: it removes the cgroup itself. -/
def pipeFails : List Act :=
  List.replicate 6 (Act.runner .ok) ++ List.replicate 2 (Act.supervisor .ok) ++
    [Act.supervisor (.fail 24), .supervisor .ok] ++ List.replicate 105 (Act.runner .ok)

theorem rolled_back_iff_pipeFails :
    ∃ w : World, w.runner.result.status = .sandboxFailure ∧ w.cgroup.present = false := by
  obtain ⟨w, hw, hpc, hs⟩ : ∃ w, Runs ⟨[], 1000, 0⟩ pipeFails w ∧ w.runner.pc = .returned ∧
      w.runner.result.status = .sandboxFailure := exists_run (by decide +kernel)
  exact ⟨w, hs, (rolled_back_iff hw (by decide +kernel) hpc).2 (by decide +kernel)⟩

/-- `mkdtemp` fails: the supervisor reports it and exits, and the runner takes the
report for a supervisor that has cleaned up. -/
def mkdtempFails : List Act :=
  List.replicate 6 (Act.runner .ok) ++ [Act.supervisor .ok, .supervisor (.fail 28)] ++
    List.replicate 2 (Act.supervisor .ok) ++ List.replicate 3 (Act.runner .ok)

theorem left_behind :
    ¬ ∀ (q : Request) (acts : List Act) (w : World), Runs q acts w →
      Machine.Along step Obliging (.init q) acts → w.runner.pc = .returned →
      w.cgroup.present = false := by
  intro h
  obtain ⟨w, hw, hpc, hp⟩ : ∃ w, Runs ⟨[], 1000, 0⟩ mkdtempFails w ∧
      w.runner.pc = .returned ∧ w.cgroup.present = true := exists_run (by decide +kernel)
  have hgone := h _ _ w hw (by decide +kernel) hpc
  rw [hp] at hgone
  cases hgone

end OnlineJudge
