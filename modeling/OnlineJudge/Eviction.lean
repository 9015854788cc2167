import OnlineJudge.Rollback

/-!
# Kill before removal

The execution cgroup is removed by the supervisor after it has reaped Child A or
never had one, and by the runner after it has found the cgroup empty. By then
whatever was placed in it has ended or was hit by a write to `cgroup.kill`, and
nothing is placed in it any more.
-/

namespace OnlineJudge

variable {q : Request} {acts : List Act} {w w' : World} {x : Answer} {a : Act}

/-! ## What the runner finds -/

/-- Whatever was placed in the cgroup has ended, and nothing is added. -/
structure Vacant (w : World) : Prop where
  late : Late w
  childA : w.cgroup.hasA = true → w.childA.alive = false
  childB : w.cgroup.hasB = true → w.childB.alive = false

theorem vacant_of_unpopulated (hlate : Late w) (h : w.populated = false) : Vacant w := by
  simp only [World.populated, Bool.or_eq_false_iff, Bool.and_eq_false_iff] at h
  exact ⟨hlate, by grind -linarith, by grind -linarith⟩

theorem Vacant.keep (h : Vacant w) (hl : Lineage w) (hm : Move w a w') : Vacant w' := by
  have hlate := h.late.keep hl hm
  obtain ⟨hold, hA, hB⟩ := h
  cases hm with
  | runner hm =>
    exact ⟨hlate, by rw [hm.hasA, hm.childA]; exact hA, by rw [hm.hasB, hm.childB]; exact hB⟩
  | supervisor hm =>
    refine ⟨hlate, ?_, by rw [hm.hasB, hm.childB]; exact hB⟩
    unfold Late at hold
    cases hm.phases <;> grind -linarith
  | childA hm =>
    cases hm <;> constructor <;> grind -linarith
  | childB hm =>
    refine ⟨hlate, by rw [hm.cgroup, hm.childA]; exact hA, ?_⟩
    rw [hm.cgroup]
    cases hm <;> grind -linarith
  | finished => exact ⟨hlate, hA, fun _ => rfl⟩
  | diedA => exact ⟨hlate, fun _ => rfl, hB⟩
  | diedB => exact ⟨hlate, hA, fun _ => rfl⟩
  | _ => exact ⟨hlate, hA, hB⟩

/-- What the runner goes by when it removes the cgroup. -/
structure Cleared (vacant : Prop) (r : Runner) : Prop where
  found : r.execution_contained = true → vacant
  removing : ∀ site, r.pc = .accessCgroup site ∨ r.pc = .removeCgroup site → vacant

namespace Cleared

section
variable {vacant : Prop} {r : Runner} {site : Cleanup}

theorem endCleanup (hc : r.execution_contained = true → vacant) :
    Cleared vacant (r.endCleanup site) := by
  rcases site with _ | _ | _ | _ <;> constructor <;> grind -linarith

theorem afterReap (hc : r.execution_contained = true → vacant) {use : CleanupUse} :
    Cleared vacant (r.afterReap use) := by
  unfold Runner.afterReap
  split
  · rename_i h
    rw [Bool.and_eq_true] at h
    exact ⟨hc, fun _ _ => hc h.2⟩
  · exact endCleanup hc

theorem contained (ok : Bool) (hc : r.execution_contained = true → vacant)
    (hok : ok = true → vacant) : Cleared vacant (r.contained ok site) := by
  rcases site with unexpected | use
  · cases ok
    · change Cleared vacant
        ({ r with containment_failed := true }.endCleanup (.beforeReady unexpected))
      exact endCleanup hc
    · exact ⟨hc, fun _ _ => hok rfl⟩
  · have hcontain (r₁ : Runner) (hc₁ : r₁.execution_contained = true → vacant) :
        Cleared vacant (r₁.afterContain use) := by
      unfold Runner.afterContain
      split
      · exact afterReap hc₁
      · exact ⟨hc₁, by simp [Runner.go]⟩
    cases ok
    · exact hcontain _ hc
    · exact hcontain _ fun _ => hok rfl

theorem cleanupWaited (ok : Bool) (hc : r.execution_contained = true → vacant) :
    Cleared vacant (r.cleanupWaited ok site) := by
  rcases site with unexpected | use
  · exact ⟨hc, by simp [Runner.cleanupWaited, Runner.go]⟩
  · cases ok
    · exact afterReap (by exact hc)
    · exact afterReap (by exact hc)

end

theorem runner (h : Cleared (Vacant w) w.runner) (hl : Lineage w)
    (hlate : w.runner.pc.onCgroup = true → Late w) (hm : Runner.Move w x w') :
    Cleared (Vacant w') w'.runner := by
  have hkeep : Vacant w → Vacant w' := fun hv => hv.keep hl (.runner hm)
  obtain ⟨hc, hr⟩ := h
  replace hc := fun hf => hkeep (hc hf)
  replace hr := fun site hpc => hkeep (hr site hpc)
  cases hm with
  | got site | lost site => clear hlate; cases site <;> constructor <;> grind -linarith
  | sent site | sendFailed site => clear hlate; cases site <;> constructor <;> grind -linarith
  | waited site =>
    cases site with
    | cleanup => exact cleanupWaited true hc
    | _ => clear hlate; constructor <;> grind -linarith
  | waitFailed site =>
    cases site with
    | cleanup => exact cleanupWaited false hc
    | _ => clear hlate; constructor <;> grind -linarith
  | killFailed => exact contained false hc (by rintro ⟨⟩)
  | foundPopulated => exact contained false hc (by rintro ⟨⟩)
  | foundEmpty hpc _ he =>
    exact contained true hc fun _ => hkeep (vacant_of_unpopulated (hlate (by rw [hpc]; rfl)) he)
  | removeSkipped | removed => exact endCleanup hc
  | removeFailed => exact endCleanup (by exact hc)
  | _ => clear hlate; constructor <;> grind -linarith

theorem keep (h : Cleared (Vacant w) w.runner) (hl : Lineage w)
    (hlate : w.runner.pc.onCgroup = true → Late w) (hm : Move w a w') :
    Cleared (Vacant w') w'.runner := by
  rcases hm.runner_cases with ⟨x, rfl, hrun⟩ | hr
  · exact h.runner hl hlate hrun
  · rw [hr]
    exact ⟨fun hf => (h.found hf).keep hl hm, fun site hpc => (h.removing site hpc).keep hl hm⟩

end Cleared

/-! ## What the supervisor knows -/

/-- Child A was not released, and will not be. -/
def SupervisorPc.withholding : SupervisorPc → Bool
  | killChild | waitKilledChild | removeCgroup .noProcess _ => true
  | _ => false

attribute [grind =] SupervisorPc.withholding

/-- Child A is killed alone only where there is no Child B, or by a supervisor
that removes nothing any more. -/
structure Penned (w : World) : Prop where
  unreleased : w.sup.pc.withholding = true → w.released = false
  ended : w.reaped.childA = true → ∃ s, w.childA = .exited s
  caught : w.sup.pc.phase ≠ .over → w.killed.childA = true → w.cgroup.hasB = true →
    w.childB.alive = true → w.killed.childB = true
  outside : w.childB = .unborn → w.cgroup.hasB = false

/-- There is no way back from the last phase. -/
theorem Phases.not_over (h : Phases w w') (hp : w'.sup.pc.phase ≠ .over) :
    w.sup.pc.phase ≠ .over := by
  cases h <;> grind -linarith

namespace Penned

theorem supervisor (h : Penned w) (hl : Lineage w) (hm : Supervisor.Move w x w') : Penned w' := by
  have hheld := hl.held
  have hunborn := hl.unborn
  obtain ⟨hun, hend, hcaught, hout⟩ := h
  refine ⟨?_, ?_, fun hp => ?_, by rwa [hm.childB, hm.hasB]⟩
  · clear hend hcaught hunborn hl
    cases hm with
    | gotControl =>
      rcases w.sup.handleControl_cases
        (.ofBytes (w.toSup.pending.take headerSize)) with he | he | he | he <;> grind -linarith
    | @gotStatus r => cases r <;> grind -linarith
    | waitedA site | waitAFailed site => cases site <;> grind -linarith
    | @sent caller | @sendFailed _ caller | @openedKill caller | @killWritten caller
    | @killDenied _ caller | @killFailed _ caller | @removed caller | @removeBusy caller
    | @removeDenied caller | @removeFailed caller =>
      cases caller <;> grind -linarith
    | _ => grind -linarith
  · clear hun hcaught hheld hl
    cases hm with
    | forked hpc =>
      have := hunborn (by rw [hpc]; rfl)
      grind -linarith
    | reapedA _ ha => exact fun _ => ⟨_, ha⟩
    | waitedA _ ha => exact fun _ => ⟨_, ha⟩
    | _ => exact hend
  · have hpc := hm.phases.not_over hp
    rw [hm.hasB, hm.childB]
    replace hcaught := hcaught hpc
    clear hun hend hheld hunborn hl
    cases hm with
    | killWritten => grind -linarith
    | killedA hat => rcases hat with ⟨hat, -⟩ | ⟨hat, -⟩ <;> simp [hat, SupervisorPc.phase] at hpc
    | _ => exact hcaught

theorem runner (h : Penned w) (hl : Lineage w) (hm : Runner.Move w x w') : Penned w' := by
  obtain ⟨hun, hend, hcaught, hout⟩ := h
  have hreaped : w'.reaped.childA = w.reaped.childA := by cases hm <;> rfl
  have hcaught' (hk : w'.killed.childA = true) (hp : w.sup.pc.phase ≠ .over)
      (hb : w.cgroup.hasB = true) (ha : w.childB.alive = true) : w'.killed.childB = true := by
    cases hm with
    | killWritten => grind -linarith
    | _ => exact hcaught hp hk hb ha
  refine ⟨?_, by rwa [hreaped, hm.childA], fun hp hk hb ha => ?_, by rwa [hm.childB, hm.hasB]⟩
  · rw [hm.released]
    rcases hm.sup with hs | ⟨-, -, hs⟩
    · rwa [hs]
    · rw [hs]
      rintro ⟨⟩
  · rw [hm.hasB] at hb
    rw [hm.childB] at ha
    refine hcaught' hk ?_ hb ha
    rcases hm.sup with hs | ⟨hpc, -, -⟩
    · rwa [hs] at hp
    · simp [hl.unforked hpc, SupervisorPc.phase]

theorem childA_move (h : Penned w) (hm : ChildA.Move w x w') : Penned w' := by
  obtain ⟨hun, hend, hcaught, hout⟩ := h
  rw [← hm.sup, ← hm.released_eq] at hun
  rw [← hm.sup] at hcaught
  refine ⟨hun, ?_, ?_, ?_⟩
  · intro hr
    obtain ⟨s, hs⟩ := hend (by cases hm <;> exact hr)
    cases hm <;> grind -linarith
  · cases hm <;> grind -linarith
  · have := ChildB.next_cases childBSetup
    cases hm <;> grind -linarith

theorem keep (h : Penned w) (hl : Lineage w) (hm : Move w a w') : Penned w' := by
  cases hm with
  | runner hm => exact h.runner hl hm
  | supervisor hm => exact h.supervisor hl hm
  | childA hm => exact h.childA_move hm
  | childB hm =>
    obtain ⟨hun, hend, hcaught, hout⟩ := h
    rw [← hm.sup, ← hm.released] at hun
    rw [← hm.reaped, ← hm.childA] at hend
    rw [← hm.sup, ← hm.killed, ← hm.cgroup] at hcaught
    refine ⟨hun, hend, fun hp hk hb _ => hcaught hp hk hb ?_, ?_⟩
    · cases hm <;> grind -linarith
    · rw [hm.cgroup]
      cases hm with
      | @setupDone _ rest => have := ChildB.next_cases rest; grind -linarith
      | _ => grind -linarith
  | diedSupervisor => exact ⟨by rintro ⟨⟩, h.ended, fun hp => absurd rfl hp, h.outside⟩
  | diedA => exact ⟨h.unreleased, fun _ => ⟨_, rfl⟩, h.caught, h.outside⟩
  | diedB | finished => exact ⟨h.unreleased, h.ended, by simp [ChildB.alive], by rintro ⟨⟩⟩
  | _ => exact ⟨h.unreleased, h.ended, h.caught, h.outside⟩

theorem init (q : Request) : Penned (.init q) := ⟨nofun, nofun, fun _ => nofun, fun _ => rfl⟩

end Penned

/-! ## Runs -/

/-- What a run keeps whose waits are answered honestly. -/
structure Eviction (w : World) : Prop where
  lineage : Lineage w
  reaping : Reaping w
  reapingA : ReapingA w
  exited : w.reaped.supervisor = true → ∃ s, w.sup.pc = .exited s
  spoken : Spoken w
  cleared : Cleared (Vacant w) w.runner
  penned : Penned w

namespace Eviction

theorem keep (h : Eviction w) (hw : WaitsHonest w a) (ht : step w a = some w') : Eviction w' := by
  have hm := moves_step ht
  obtain ⟨hl, hr, hrA, he, hs, hc, hp⟩ := h
  exact ⟨hl.keep hm, hr.keep hw hm, hrA.keep hl hw ht, exited_of_reaped_keep he hl hm,
    hs.keep hl hm, hc.keep hl (late_of_onCgroup hs hr he) hm, hp.keep hl hm⟩

theorem init (q : Request) : Eviction (.init q) :=
  ⟨.init q, .init q, .init q, nofun, ⟨fun hs => absurd rfl hs, nofun⟩,
    ⟨nofun, by simp [World.init]⟩, .init q⟩

theorem reach (h : Runs q acts w) (hw : Machine.Along step WaitsHonest (.init q) acts) :
    Eviction w :=
  Machine.run_invariant (fun _ _ _ hp hs ht => hs.keep hp ht) (init q) hw h

/-- Where the supervisor removes the cgroup, Child A was reaped or never forked,
and a Child B that runs on was killed with it. -/
theorem supervisor_removes {caller : CleanupCaller} {retries : Nat} (h : Eviction w)
    (hpc : w.sup.pc = .removeCgroup caller retries) :
    Late w ∧ w.childA.alive = false ∧
      (w.cgroup.hasB = true → w.childB.alive = true → w.killed.childB = true) := by
  have hA : w.childA.alive = false := by
    by_cases hu : w.childA = .unborn
    · simp [hu, ChildA.alive]
    · have hreaped := h.reapingA.settled hu (by rw [hpc]; rfl)
      rw [hpc] at hreaped
      obtain ⟨s, hs⟩ := h.penned.ended hreaped
      simp [hs, ChildA.alive]
  have hnot (hp : w.sup.pc.phase = .started) (hb : w.cgroup.hasB = true)
      (ha : w.childB.alive = true) : w.killed.childB = true :=
    h.penned.caught (by simp [hp]) (h.lineage.orphaned hA ha) hb ha
  cases caller with
  | noProcess =>
    have hreleased := h.penned.unreleased (by rw [hpc]; rfl)
    refine ⟨.inr (by rw [hpc]; rfl), hA, fun _ ha => ?_⟩
    simp [(h.lineage.waiting hreleased).2, ChildB.alive] at ha
  | payload => exact ⟨.inl (by rw [hpc]; rfl), hA, hnot (by rw [hpc]; rfl)⟩
  | finished => exact ⟨.inl (by rw [hpc]; rfl), hA, hnot (by rw [hpc]; rfl)⟩

end Eviction

/-- A successful write to `cgroup.kill`. -/
def writesKill (w : World) : Act → Bool
  | .runner x => x = .ok && w.cgroup.present && (w.runner.pc matches .writeKill _)
  | .supervisor x => x = .ok && w.cgroup.present && (w.sup.pc matches .writeKill _)
  | _ => false

/-- One that finds Child B alive in the cgroup. -/
def killsInside (w : World) (a : Act) : Bool :=
  writesKill w a && w.cgroup.hasB && w.childB.alive

/-- Nothing else kills Child B. -/
theorem Move.killsInside (hm : Move w a w') (hk : w.killed.childB = false)
    (hk' : w'.killed.childB = true) : killsInside w a = true := by
  cases hm with
  | runner hm =>
    cases hm with
    | killWritten hpc hp => simp_all [World.killCgroup, OnlineJudge.killsInside, writesKill]
    | _ => simp_all
  | supervisor hm =>
    cases hm with
    | killWritten hpc hp => simp_all [World.killCgroup, OnlineJudge.killsInside, writesKill]
    | _ => simp_all
  | childA hm => simp [hm.killed, hk] at hk'
  | childB hm => simp [hm.killed, hk] at hk'
  | _ => simp [hk] at hk'

theorem sometime_killsInside (h : Runs q acts w) (hk : w.killed.childB = true) :
    Machine.Sometime step (fun s b => killsInside s b = true) (.init q) acts := by
  by_contra hn
  have hnever : w.killed.childB = false :=
    Machine.run_invariant (I := fun s => s.killed.childB = false)
      (fun s b t hp hs ht => by
        by_contra hk'
        exact hp ((moves_step ht).killsInside hs (by simpa using hk')))
      rfl (Machine.along_not_of_not_sometime hn) h
  simp [hnever] at hk

/-- Nobody joins a cgroup whose live processes were all killed. -/
theorem Doomed.members (h : Doomed w) (hl : Lineage w) (hp : Penned w) (hm : Move w a w') :
    w'.cgroup.hasA = w.cgroup.hasA ∧ w'.cgroup.hasB = w.cgroup.hasB := by
  cases hm with
  | runner hm => exact ⟨hm.hasA, hm.hasB⟩
  | supervisor hm =>
    refine ⟨?_, hm.hasB⟩
    have hlate := h.late
    unfold Late at hlate
    cases hm.phases <;> grind -linarith
  | childA hm =>
    obtain ⟨-, hA, -⟩ := h
    cases hm with
    | forked hpc hk =>
      -- a Child A that may fork is outside, and so is what it forks
      have hout : w.cgroup.hasA = false := by
        cases hin : w.cgroup.hasA with
        | false => rfl
        | true => simp [hA hin (by simp [hpc, ChildA.alive])] at hk
      exact ⟨rfl, hout.trans (hp.outside (hl.unbornB (by rw [hpc]; rfl))).symm⟩
    | _ => exact ⟨rfl, rfl⟩
  | childB hm => simp [hm.cgroup]
  | _ => exact ⟨rfl, rfl⟩

theorem Doomed.members_run {more : List Act} (h : Doomed w) (hl : Lineage w) (hp : Penned w)
    (hr : Machine.run step w more = some w') :
    w'.cgroup.hasA = w.cgroup.hasA ∧ w'.cgroup.hasB = w.cgroup.hasB := by
  have hend : (Doomed w' ∧ Lineage w' ∧ Penned w') ∧
      w'.cgroup.hasA = w.cgroup.hasA ∧ w'.cgroup.hasB = w.cgroup.hasB :=
    Machine.run_keeps (I := fun s => (Doomed s ∧ Lineage s ∧ Penned s) ∧
        s.cgroup.hasA = w.cgroup.hasA ∧ s.cgroup.hasB = w.cgroup.hasB)
      (fun s b t ⟨⟨hd, hl, hp⟩, hA, hB⟩ ht => by
        have hm := moves_step ht
        obtain ⟨hA', hB'⟩ := hd.members hl hp hm
        exact ⟨⟨hd.keep hl hm, hl.keep hm, hp.keep hl hm⟩, hA'.trans hA, hB'.trans hB⟩)
      ⟨⟨h, hl, hp⟩, rfl, rfl⟩ hr
  exact hend.2

/-- Wherever `rmdir` is tried on the execution cgroup, what was placed in it has
ended or was killed through `cgroup.kill`, and nothing is placed in it any more. -/
theorem kill_before_removal (h : Runs q acts w)
    (hw : Machine.Along step WaitsHonest (.init q) acts)
    (hpc : (∃ caller retries, w.sup.pc = .removeCgroup caller retries) ∨
      ∃ site, w.runner.pc = .removeCgroup site) :
    (w.cgroup.hasA = true → w.childA.alive = false) ∧
    (w.cgroup.hasB = true → w.childB.alive = false ∨
      Machine.Sometime step (fun s b => killsInside s b = true) (.init q) acts) ∧
    ∀ more w', Machine.run step w more = some w' →
      w'.cgroup.hasA = w.cgroup.hasA ∧ w'.cgroup.hasB = w.cgroup.hasB := by
  have he := Eviction.reach h hw
  have hkilled : Late w ∧ (w.cgroup.hasA = true → w.childA.alive = false) ∧
      (w.cgroup.hasB = true → w.childB.alive = true → w.killed.childB = true) := by
    rcases hpc with ⟨caller, retries, hpc⟩ | ⟨site, hpc⟩
    · obtain ⟨hlate, hA, hB⟩ := he.supervisor_removes hpc
      exact ⟨hlate, fun _ => hA, hB⟩
    · obtain ⟨hlate, hA, hB⟩ := he.cleared.removing site (.inr hpc)
      exact ⟨hlate, hA, fun hb ha => by simp [hB hb] at ha⟩
  obtain ⟨hlate, hA, hB⟩ := hkilled
  refine ⟨hA, fun hb => ?_, fun more w' hr => ?_⟩
  · cases ha : w.childB.alive with
    | false => exact .inl rfl
    | true => exact .inr (sometime_killsInside h (hB hb ha))
  · have hd : Doomed w := ⟨hlate, fun hc ha => by simp [hA hc] at ha, hB⟩
    exact hd.members_run he.lineage he.penned hr

/-- Asked to terminate, the supervisor kills, and reaps Child A before Child B has
died. -/
def killsFirst : List Act :=
  boot ++ [Act.runner .ok, .runner (.fail 12), .runner .ok, .supervisor (.ready true false)] ++
    List.replicate 3 (Act.supervisor .ok) ++ [Act.die .childA, .supervisor (.reap .zero)]

theorem kill_before_removal_killsFirst :
    ∃ w : World, w.sup.pc = .removeCgroup .finished 5 ∧ w.childB.alive = true ∧
      Machine.Sometime step (fun s b => killsInside s b = true) (.init ⟨[], 1000, 0⟩)
        killsFirst := by
  obtain ⟨w, hw, hpc, hB, ha⟩ : ∃ w, Runs ⟨[], 1000, 0⟩ killsFirst w ∧
      w.sup.pc = .removeCgroup .finished 5 ∧ w.cgroup.hasB = true ∧ w.childB.alive = true :=
    exists_run (by decide +kernel)
  have hkilled := (kill_before_removal hw (by decide +kernel) (.inl ⟨_, _, hpc⟩)).2.1 hB
  exact ⟨w, hpc, ha, hkilled.resolve_left (by simp [ha])⟩

end OnlineJudge
