import OnlineJudge.Survivors
import OnlineJudge.Verdicts

/-!
# What `cleanup_after_failure` recognises

`cleanup_after_failure` puts its answer together from several calls, and they do
not agree about a cgroup that is gone: `kill_execution_cgroup` and
`cleanup_execution_cgroup` count it as done with, `is_execution_cgroup_empty` as
not empty.
-/

namespace OnlineJudge

variable {q : Request} {acts : List Act} {w w' : World} {x : Answer} {a : Act} {use : CleanupUse}

/-- Nothing of the execution is left. -/
structure Dissolved (w : World) : Prop where
  supervisor : w.reaped.supervisor = true
  childA : w.childA.alive = false
  childB : w.childB.alive = false
  cgroup : w.cgroup.present = false

/-! ## What puts containment in doubt -/

/-- `cleanup_after_failure` finds the directory missing where it counts as a
failure: between the open and the write of `cgroup.kill`, and at the last look at
`cgroup.events`. -/
def vanished (w : World) : Act → Bool
  | .runner x =>
    match w.runner.pc with
    | .writeKill (.afterFailure _) | .lastCheck (.afterFailure _) => x = .ok && !w.cgroup.present
    | _ => false
  | _ => false

/-- The last look at `cgroup.events` finds a process. -/
def occupied (w : World) : Act → Bool
  | .runner x =>
    match w.runner.pc with
    | .lastCheck (.afterFailure _) => x = .ok && w.cgroup.present && w.populated
    | _ => false
  | _ => false

/-- A call of `cleanup_after_failure` fails, and not in a way that it excuses. -/
def refused (w : World) : Act → Bool
  | .runner x =>
    match w.runner.pc with
    | .waitSupervisor (.afterFailure _) =>
      x.failsWith (· ≠ EINTR) || x = .ok && w.reaped.supervisor
    | .openKill (.afterFailure _) | .removeCgroup (.afterFailure _) =>
      x.failsWith fun e => !(permission e || e = ENOENT)
    | .writeKill (.afterFailure _) => x.failsWith fun e => !(permission e || e = EINTR)
    | .lastCheck (.afterFailure _) => x.failsWith fun _ => true
    | _ => false
  | _ => false

def doubted (w : World) (a : Act) : Bool := vanished w a || occupied w a || refused w a

theorem doubted_eq_uncontained (hsite : w.runner.pc.site = some (.afterFailure use))
    (ht : Runner.step w x = some w') : doubted w (.runner x) = Runner.uncontained w x := by
  cases hpc : w.runner.pc with
  | lastCheck site =>
    cases hsite.symm.trans (congrArg RunnerPc.site hpc)
    simp only [Runner.step, hpc, Runner.lastCheck, Option.map_eq_some_iff] at ht
    obtain ⟨isEmpty, hempty, -⟩ := ht
    cases x <;> simp only [Runner.isExecutionCgroupEmpty, reduceCtorEq] at hempty
    · cases hp : w.cgroup.present <;> cases he : w.populated <;>
        simp [doubted, vanished, occupied, refused, Runner.uncontained, hpc, hp, he,
          Answer.failsWith]
    · simp [doubted, vanished, occupied, refused, Runner.uncontained, hpc, Answer.failsWith]
  | writeKill site =>
    cases hsite.symm.trans (congrArg RunnerPc.site hpc)
    simp [doubted, vanished, occupied, refused, Runner.uncontained, hpc, Bool.or_comm]
  | _ => simp_all [doubted, vanished, occupied, refused, Runner.uncontained, RunnerPc.site]

theorem site_of_doubted (h : doubted w (.runner x) = true) :
    ∃ use, w.runner.pc.site = some (.afterFailure use) := by
  cases hpc : w.runner.pc with
  | waitSupervisor site | openKill site | writeKill site | lastCheck site | removeCgroup site =>
    cases site with
    | beforeReady => simp [doubted, vanished, occupied, refused, hpc] at h
    | afterFailure use => exact ⟨use, rfl⟩
  | _ => simp [doubted, vanished, occupied, refused, hpc] at h

/-! ## One call -/

/-- What a call of `cleanup_after_failure` makes of a runner, when `doubt` is what
it has come to so far. -/
structure Judges (use : CleanupUse) (doubt : Bool) (r r' : Runner) : Prop where
  failed : r'.containment_failed = doubt
  pc : r'.pc.site = some (.afterFailure use) ∨ r'.pc = .returned
  status : r.result.status = .runnerFailure → doubt = false → r'.result.status = .runnerFailure

namespace Judges

section
variable {doubt : Bool} {r r₀ : Runner}

theorem go {pc : RunnerPc} (hf : r₀.containment_failed = doubt) (h : r₀.result = r.result)
    (hpc : pc.site = some (.afterFailure use)) : Judges use doubt r (r₀.go pc) :=
  ⟨hf, .inl hpc, fun hs _ => (congrArg _ h).trans hs⟩

theorem endCleanup (hf : r₀.containment_failed = doubt) (h : r₀.result = r.result) :
    Judges use doubt r (r₀.endCleanup (.afterFailure use)) := by
  cases use with
  | unused => exact ⟨hf, .inr rfl, fun hs _ => (congrArg _ h).trans hs⟩
  | runnerFailure => exact ⟨hf, .inr rfl, fun _ _ => rfl⟩
  | checked =>
    refine ⟨hf, .inr rfl, fun _ hdoubt => ?_⟩
    rw [hdoubt] at hf
    simp [Runner.endCleanup, Runner.cleanupReturned, Runner.closePipes, Runner.closeControl,
      Runner.giveStatus, Runner.give, hf]

theorem afterReap (hf : r₀.containment_failed = doubt) (h : r₀.result = r.result) :
    Judges use doubt r (r₀.afterReap use) := by
  unfold Runner.afterReap
  split
  · exact go hf h rfl
  · exact endCleanup hf h

theorem contained (ok : Bool) (hf : r.containment_failed = doubt) :
    Judges use (doubt || !ok) r (r.contained ok (.afterFailure use)) := by
  have hcontain (r₀ : Runner) (hf : r₀.containment_failed = (doubt || !ok))
      (h : r₀.result = r.result) : Judges use (doubt || !ok) r (r₀.afterContain use) := by
    unfold Runner.afterContain
    split
    · exact afterReap hf h
    · exact go hf h rfl
  cases ok
  · exact hcontain _ (by simp) rfl
  · exact hcontain _ (by simpa using hf) rfl

theorem cleanupWaited (ok : Bool) (hf : r.containment_failed = doubt) :
    Judges use (doubt || !ok) r (r.cleanupWaited ok (.afterFailure use)) := by
  cases ok
  · exact afterReap (by simp) rfl
  · exact afterReap (by simpa using hf) rfl

end

/-- Each call of `cleanup_after_failure` adds its own doubt to the answer, and
nothing else does. -/
theorem of_step (hsite : w.runner.pc.site = some (.afterFailure use))
    (ht : Runner.step w x = some w') :
    Judges use (w.runner.containment_failed || doubted w (.runner x)) w.runner w'.runner := by
  rw [doubted_eq_uncontained hsite ht]
  have stay : Judges use w.runner.containment_failed w.runner w.runner :=
    ⟨rfl, .inl hsite, fun hs _ => hs⟩
  cases hpc : w.runner.pc with
  | cleanupTerminate use' =>
    cases hsite.symm.trans (congrArg RunnerPc.site hpc)
    have hu : Runner.uncontained w x = false := by simp [Runner.uncontained, hpc]
    rw [hu, Bool.or_false]
    simp only [Runner.step, hpc] at ht
    cases x <;> simp only [Runner.sendTerminate, reduceCtorEq] at ht
    · split at ht <;> cases ht
      · exact go rfl rfl rfl
      · exact go rfl rfl rfl
    · split at ht <;> cases ht
      · exact stay
      · exact go rfl rfl rfl
  | cleanupNoHang use' tries =>
    cases hsite.symm.trans (congrArg RunnerPc.site hpc)
    have hu : Runner.uncontained w x = false := by simp [Runner.uncontained, hpc]
    rw [hu, Bool.or_false]
    simp only [Runner.step, hpc] at ht
    cases x <;> simp only [Runner.cleanupNoHang, reduceCtorEq] at ht
    · split at ht
      · split at ht <;> cases ht
        · exact go rfl rfl rfl
        · exact go rfl rfl rfl
      · cases ht
        exact go rfl rfl (by split <;> rfl)
    · split at ht <;> cases ht
      · exact stay
      · exact go rfl rfl rfl
  | killSupervisor site =>
    cases hsite.symm.trans (congrArg RunnerPc.site hpc)
    have hu : Runner.uncontained w x = false := by simp [Runner.uncontained, hpc]
    rw [hu, Bool.or_false]
    simp only [Runner.step, hpc] at ht
    cases x <;> simp only [Runner.killSupervisor, reduceCtorEq] at ht <;> cases ht
    · exact go rfl rfl rfl
    · exact go rfl rfl rfl
  | waitSupervisor site =>
    cases hsite.symm.trans (congrArg RunnerPc.site hpc)
    simp only [Runner.step, hpc] at ht
    cases x <;> simp only [Runner.waitSupervisor, reduceCtorEq] at ht
    · split at ht
      · split at ht <;> cases ht
        · rename_i hr
          have hu : Runner.uncontained w .ok = true := by simp [Runner.uncontained, hpc, hr]
          rw [hu]
          exact cleanupWaited false rfl
        · rename_i hr
          have hu : Runner.uncontained w .ok = false := by
            simp [Runner.uncontained, hpc, Answer.failsWith, hr]
          rw [hu]
          exact cleanupWaited true rfl
      · cases ht
    · split at ht <;> cases ht
      · rename_i he
        simpa [Runner.uncontained, hpc, Answer.failsWith, he] using stay
      · rename_i he
        simpa [Runner.uncontained, hpc, Answer.failsWith, he] using cleanupWaited false rfl
  | openKill site =>
    cases hsite.symm.trans (congrArg RunnerPc.site hpc)
    simp only [Runner.step, hpc] at ht
    cases x <;> simp only [Runner.openKill, reduceCtorEq] at ht
    · cases ht
      have hu : Runner.uncontained w .ok = false := by
        simp [Runner.uncontained, hpc, Answer.failsWith]
      rw [hu, Bool.or_false]
      exact go rfl rfl (by split <;> rfl)
    · split at ht <;> cases ht
      · rename_i he
        simpa [Runner.uncontained, hpc, Answer.failsWith, he] using go rfl rfl rfl
      · rename_i he
        simpa [Runner.uncontained, hpc, Answer.failsWith, he] using contained false rfl
  | writeKill site =>
    cases hsite.symm.trans (congrArg RunnerPc.site hpc)
    simp only [Runner.step, hpc] at ht
    cases x <;> simp only [Runner.writeKill, reduceCtorEq] at ht
    · split at ht <;> cases ht
      · rename_i hp
        have hu : Runner.uncontained w .ok = false := by
          simp [Runner.uncontained, hpc, Answer.failsWith, hp]
        rw [hu, Bool.or_false]
        exact go rfl rfl rfl
      · rename_i hp
        simpa [Runner.uncontained, hpc, hp] using contained false rfl
    · split at ht
      · rename_i he
        cases ht
        simpa [Runner.uncontained, hpc, Answer.failsWith, he] using stay
      · rename_i hne
        split at ht <;> cases ht
        · rename_i he
          simpa [Runner.uncontained, hpc, Answer.failsWith, he] using go rfl rfl rfl
        · rename_i he
          simpa [Runner.uncontained, hpc, Answer.failsWith, he, hne] using contained false rfl
  | checkEmpty site tries =>
    cases hsite.symm.trans (congrArg RunnerPc.site hpc)
    have hu : Runner.uncontained w x = false := by simp [Runner.uncontained, hpc]
    rw [hu, Bool.or_false]
    simp only [Runner.step, hpc, Runner.checkEmpty, Option.map_eq_some_iff] at ht
    obtain ⟨isEmpty, -, rfl⟩ := ht
    exact go rfl rfl (by split <;> rfl)
  | lastCheck site =>
    cases hsite.symm.trans (congrArg RunnerPc.site hpc)
    simp only [Runner.step, hpc, Runner.lastCheck, Option.map_eq_some_iff] at ht
    obtain ⟨isEmpty, hempty, rfl⟩ := ht
    have hu : Runner.uncontained w x = !isEmpty := by
      simp only [Runner.uncontained, hpc]
      cases x <;> simp only [Runner.isExecutionCgroupEmpty, populatedIsZero_cgroupEvents,
        Option.some.injEq, reduceCtorEq] at hempty <;> subst hempty <;> rfl
    rw [hu]
    exact contained isEmpty rfl
  | accessCgroup site =>
    cases hsite.symm.trans (congrArg RunnerPc.site hpc)
    have hu : Runner.uncontained w x = false := by simp [Runner.uncontained, hpc]
    rw [hu, Bool.or_false]
    simp only [Runner.step, hpc] at ht
    cases x <;> simp only [Runner.accessCgroup, reduceCtorEq] at ht <;> cases ht
    · split
      · exact go rfl rfl rfl
      · exact endCleanup rfl rfl
    · exact endCleanup rfl rfl
  | removeCgroup site =>
    cases hsite.symm.trans (congrArg RunnerPc.site hpc)
    simp only [Runner.step, hpc] at ht
    cases x <;> simp only [Runner.removeCgroup, reduceCtorEq] at ht
    · split at ht <;> cases ht
      simpa [Runner.uncontained, hpc, Answer.failsWith] using endCleanup rfl rfl
    · cases ht
      split
      · rename_i he
        simpa [Runner.uncontained, hpc, Answer.failsWith, he] using endCleanup rfl rfl
      · rename_i he
        exact endCleanup (by simp [Runner.uncontained, hpc, Answer.failsWith, he]) rfl
  | _ => simp [hpc, RunnerPc.site] at hsite

end Judges

/-! ## Runs -/

/-- Outside of the cleanup routines nobody asks about containment. -/
theorem Runner.Move.containment_failed_of_apart (hm : Runner.Move w x w')
    (hsite : w.runner.pc.site = none) :
    w'.runner.containment_failed = w.runner.containment_failed := by
  cases hm with
  | got site | lost site => cases site <;> grind -linarith
  | sent site | sendFailed site => cases site <;> grind -linarith
  | waited site | waitFailed site => cases site <;> grind -linarith
  | _ => grind -linarith

/-- `cleanup_before_ready` is left for the return only. -/
theorem Runner.Move.beforeReady {unexpected : Bool} (hm : Runner.Move w x w')
    (hsite : w.runner.pc.site = some (.beforeReady unexpected)) :
    w'.runner.pc.site = some (.beforeReady unexpected) ∨ w'.runner.pc = .returned := by
  cases hm with
  | got site | lost site => cases site <;> grind -linarith
  | sent site | sendFailed site => cases site <;> grind -linarith
  | waited site | waitFailed site => cases site <;> grind -linarith
  | _ => grind -linarith

/-- Up to here nothing has put containment in doubt. -/
def Undoubted (r : Runner) : Prop :=
  (∀ unexpected, r.pc.site ≠ some (.beforeReady unexpected)) → r.pc ≠ .returned →
    r.containment_failed = false

theorem Undoubted.keep (h : Undoubted w.runner) (hd : doubted w a = false)
    (ht : step w a = some w') : Undoubted w'.runner := by
  rcases (moves_step ht).runner_cases with ⟨x, rfl, hm⟩ | hr
  · intro hready hpc'
    have hpc : w.runner.pc ≠ .returned := by
      intro hpc
      rw [runner_of_returned hpc ht] at hpc'
      exact hpc' hpc
    cases hsite : w.runner.pc.site with
    | none =>
      rw [hm.containment_failed_of_apart hsite]
      exact h (by simp [hsite]) hpc
    | some site =>
      cases site with
      | beforeReady unexpected => exact absurd (hm.beforeReady hsite) (by simp [hready, hpc'])
      | afterFailure use =>
        rw [(Judges.of_step hsite ht).failed, hd, h (by simp [hsite]) hpc, Bool.or_false]
  · rwa [hr]

theorem Undoubted.init (q : Request) : Undoubted (World.init q).runner := fun _ _ => rfl

/-- `cleanup_after_failure` has found something to doubt. -/
def Doubtful (r : Runner) : Prop :=
  r.containment_failed = true ∧ ((∃ use, r.pc.site = some (.afterFailure use)) ∨ r.pc = .returned)

theorem Doubtful.of_doubted (hd : doubted w a = true) (ht : step w a = some w') :
    Doubtful w'.runner := by
  cases a with
  | runner x =>
    obtain ⟨use, hsite⟩ := site_of_doubted hd
    have hj := Judges.of_step hsite ht
    exact ⟨by rw [hj.failed, hd, Bool.or_true], hj.pc.imp_left fun hs => ⟨use, hs⟩⟩
  | _ => cases hd

theorem Doubtful.keep (h : Doubtful w.runner) (ht : step w a = some w') : Doubtful w'.runner := by
  obtain ⟨hf, ⟨use, hsite⟩ | hpc⟩ := h
  · rcases (moves_step ht).runner_cases with ⟨x, rfl, hm⟩ | hr
    · have hj := Judges.of_step hsite ht
      exact ⟨by rw [hj.failed, hf, Bool.true_or], hj.pc.imp_left fun hs => ⟨use, hs⟩⟩
    · rw [hr]
      exact ⟨hf, .inl ⟨use, hsite⟩⟩
  · rw [runner_of_returned hpc ht]
    exact ⟨hf, .inr hpc⟩

/-! ## The answer -/

theorem recognised_iff (h : Runs q acts w) (hsite : w.runner.pc.site = some (.afterFailure use))
    (ht : step w a = some w') (hpc : w'.runner.pc = .returned) :
    w'.runner.containment_failed = false ∧ w'.runner.result.status = .runnerFailure ↔
      Machine.Along step (fun s b => doubted s b = false) (.init q) (acts ++ [a]) := by
  constructor
  · rintro ⟨hf, -⟩
    by_contra hn
    obtain ⟨pre, b, post, s, hacts, hpre, hb⟩ := Machine.exists_of_not_along hn
    have hend : Machine.run step (.init q) (acts ++ [a]) = some w' :=
      Machine.run_snoc.2 ⟨w, h, ht⟩
    rw [hacts, Machine.run_append, hpre, Option.bind_some, Machine.run_cons] at hend
    obtain ⟨t, hs, hpost⟩ := hend
    have hdoubt : Doubtful w'.runner :=
      Machine.run_keeps (I := fun s => Doubtful s.runner) (fun _ _ _ hs ht => hs.keep ht)
        (.of_doubted (by simpa using hb) hs) hpost
    exact absurd hdoubt.1 (by simp [hf])
  · intro hall
    rw [Machine.along_snoc h] at hall
    obtain ⟨hall, hd⟩ := hall
    have hclear : Undoubted w.runner :=
      Machine.run_invariant (I := fun s => Undoubted s.runner)
        (fun _ _ _ hd hs ht => hs.keep hd ht) (Undoubted.init q) hall h
    have hf : w.runner.containment_failed = false :=
      hclear (by simp [hsite]) (by rintro hr; simp [hr, RunnerPc.site] at hsite)
    rcases (moves_step ht).runner_cases with ⟨x, rfl, hm⟩ | hr
    · have hj := Judges.of_step hsite ht
      have hdoubt : (w.runner.containment_failed || doubted w (.runner x)) = false := by
        rw [hf, hd, Bool.or_false]
      have hrunning : w.runner.result.status = .runnerFailure :=
        (Shaped.reach h).running (by rintro hr; simp [hr, RunnerPc.site] at hsite)
      exact ⟨hj.failed.trans hdoubt, hj.status hrunning hdoubt⟩
    · rw [hr] at hpc
      simp [hpc, RunnerPc.site] at hsite

/-- `cleanup_after_failure` recognises that nothing of the execution is left, and
its caller reports `RunnerFailure`, if and only if none of its calls puts that in
doubt. -/
theorem containment_recognised_iff (h : Runs q acts w)
    (hsite : w.runner.pc.site = some (.afterFailure use)) (ht : step w a = some w')
    (hpc : w'.runner.pc = .returned) :
    (Dissolved w' →
      w'.runner.containment_failed = false ∧ w'.runner.result.status = .runnerFailure) ↔
      (Dissolved w' →
        Machine.Along step (fun s b => doubted s b = false) (.init q) (acts ++ [a])) :=
  imp_congr_right fun _ => recognised_iff h hsite ht hpc

/-- The runner cleans up after a failed `poll`, and the supervisor does not answer:
the runner kills the children and the supervisor and removes the cgroup. -/
def takesOver : List Act :=
  boot ++ [Act.runner .ok, .runner (.fail 12)] ++ List.replicate 103 (Act.runner .ok) ++
    [Act.die .childB, .die .childA] ++ List.replicate 3 (Act.runner .ok) ++ Act.die .supervisor ::
      List.replicate 2 (Act.runner .ok)

theorem containment_recognised_iff_takesOver :
    ∃ w' : World, Dissolved w' ∧ w'.runner.result.status = .runnerFailure := by
  obtain ⟨w, w', hw, hsite, ht, hpc, hs, hA, hB, hp⟩ : ∃ w w',
      Runs ⟨[], 1000, 0⟩ takesOver w ∧ w.runner.pc.site = some (.afterFailure .checked) ∧
      step w (.runner .ok) = some w' ∧ w'.runner.pc = .returned ∧ w'.reaped.supervisor = true ∧
      w'.childA.alive = false ∧ w'.childB.alive = false ∧ w'.cgroup.present = false :=
    exists_last_step (by decide +kernel)
  have hd : Dissolved w' := ⟨hs, hA, hB, hp⟩
  have hrecognised := (containment_recognised_iff hw hsite ht hpc).2 (fun _ => by decide +kernel)
  exact ⟨w', hd, (hrecognised hd).2⟩

/-- The supervisor, asked to terminate, kills, reaps and removes everything and
exits before the runner looks. -/
def complies : List Act :=
  boot ++ [Act.runner .ok, .runner (.fail 12), .runner .ok, .supervisor (.ready true false)] ++
    List.replicate 3 (Act.supervisor .ok) ++
    [Act.die .childB, .die .childA, .supervisor (.reap .zero)] ++
    List.replicate 3 (Act.supervisor .ok) ++ List.replicate 102 (Act.runner .ok)

theorem containment_unrecognised :
    ¬ ∀ (q : Request) (acts : List Act) (w w' : World) (a : Act) (use : CleanupUse),
      Runs q acts w → w.runner.pc.site = some (.afterFailure use) → step w a = some w' →
      w'.runner.pc = .returned → Dissolved w' →
      w'.runner.containment_failed = false ∧ w'.runner.result.status = .runnerFailure := by
  intro h
  obtain ⟨w, w', hw, hsite, ht, hpc, hs, hA, hB, hp, hstatus⟩ : ∃ w w',
      Runs ⟨[], 1000, 0⟩ complies w ∧ w.runner.pc.site = some (.afterFailure .checked) ∧
      step w (.runner .ok) = some w' ∧ w'.runner.pc = .returned ∧ w'.reaped.supervisor = true ∧
      w'.childA.alive = false ∧ w'.childB.alive = false ∧ w'.cgroup.present = false ∧
      w'.runner.result.status = .sandboxFailure :=
    exists_last_step (by decide +kernel)
  have := (h _ _ w w' _ _ hw hsite ht hpc ⟨hs, hA, hB, hp⟩).2
  rw [hstatus] at this
  cases this

end OnlineJudge
