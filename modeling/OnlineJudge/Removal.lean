import OnlineJudge.Custody

/-!
# The removal of the cgroup

`Sandbox` forgets the path of the execution cgroup when it has removed the
directory, and also when the host refuses it a call on the cgroup: then
`cleanupCgroup` has nothing to do and returns true.
-/

namespace OnlineJudge

variable {q : Request} {acts : List Act} {w w' : World} {x : Answer} {a : Act}

/-! ## The path and the directory -/

namespace SupervisorPc

/-- The calls that are made on a cgroup that `setupCgroup` has created. -/
def onCgroup : SupervisorPc → Bool
  | openProcs | writeProcs | openKill _ | writeKill _ | removeCgroup _ _ => true
  | _ => false

/-- Sending what comes after a `cleanupCgroup` that returned true. -/
def telling : SupervisorPc → Bool
  | send .setupFailed _ | send .terminated _ => true
  | _ => false

/-- `setupCgroup` has not returned. -/
def beforeCgroup : SupervisorPc → Bool
  | unborn | mkdirCgroup => true
  | _ => false

end SupervisorPc

attribute [grind =] SupervisorPc.onCgroup SupervisorPc.telling SupervisorPc.beforeCgroup

/-- The host refuses a call on the cgroup after `mkdir` has succeeded. -/
def cgroupRefused (w : World) : Act → Bool
  | .supervisor x => x.failsWith permission && w.sup.pc.onCgroup
  | _ => false

/-- A call on the cgroup answers `ENOENT` although the directory exists. -/
def falselyMissing (w : World) : Act → Bool
  | .supervisor x => x.failsWith (· = ENOENT) && w.sup.pc.onCgroup && w.cgroup.present
  | _ => false

/-- The calls after which `cleanupCgroup` is called. -/
def cleanupCalled (w : World) (x : Answer) : Bool :=
  match w.sup.pc with
  | .createPipes _ | .fork => (x matches .fail _)
  -- the result of this wait is not looked at
  | .waitKilledChild => x ≠ .fail EINTR
  | .waitFailed _ => (x matches .reap _) && !w.reaped.childA
  | .waitNoHang => (x matches .reap _) && (w.childA matches .exited _) && !w.reaped.childA
  | _ => false

/-- `cleanupCgroup` returns true in this step. -/
def cleanupReturnsTrue (w : World) (x : Answer) : Bool :=
  cleanupCalled w x && !w.sup.cgroup_path ||
    (w.sup.pc matches .removeCgroup _ _) && (x = .ok || x.failsWith permission)

/-- A forgotten path is that of a directory that does not exist. -/
structure Accounted (w : World) : Prop where
  early : w.sup.pc.beforeCgroup = true → w.sup.cgroup_path = false
  path : w.sup.cgroup_path = false → w.cgroup.present = false
  telling : w.sup.pc.telling = true → w.sup.cgroup_path = false

/-- The directory is gone, and nobody makes it again. -/
def Removed (w : World) : Prop :=
  w.cgroup.present = false ∧ w.sup.pc.beforeCgroup = false

namespace Accounted

theorem supervisor (h : Accounted w) (hr : cgroupRefused w (.supervisor x) = false)
    (hk : falselyMissing w (.supervisor x) = false) (hm : Supervisor.Move w x w') :
    Accounted w' := by
  have hallowed (e : Errno) (hx : x = .fail e) (he : permission e = true) :
      w.sup.pc.onCgroup = false := by
    subst hx
    simpa [cgroupRefused, Answer.failsWith, he] using hr
  have hmissing (hx : x = .fail ENOENT) (hpc : w.sup.pc.onCgroup = true) :
      w.cgroup.present = false := by
    subst hx
    simpa [falselyMissing, Answer.failsWith, hpc] using hk
  obtain ⟨hearly, hpath, htell⟩ := h
  clear hr hk
  cases hm with
  | gotControl =>
    rcases w.sup.handleControl_cases
      (.ofBytes (w.toSup.pending.take headerSize)) with he | ⟨he, -⟩ | ⟨he, -⟩ | ⟨he, -⟩ <;>
      constructor <;> grind -linarith
  | @gotStatus r => cases r <;> constructor <;> grind -linarith
  | waitedA site | waitAFailed site => cases site <;> constructor <;> grind -linarith
  | @killDenied _ caller hx =>
    have hgone : w.cgroup.present = false := by
      rcases hx with ⟨hpc, ⟨-, hp⟩ | hx⟩ | ⟨hpc, e, hx, he⟩
      · exact hp
      · exact hmissing hx (by simp [hpc, SupervisorPc.onCgroup])
      · have hoff := hallowed e hx he
        rcases hpc with hpc | hpc <;> simp [hpc, SupervisorPc.onCgroup] at hoff
    cases caller <;> constructor <;> grind -linarith
  | @sent caller | @sendFailed _ caller | @openedKill caller | @killWritten caller
  | @killFailed _ caller | @removed caller | @removeBusy caller
  | @removeDenied caller | @removeFailed caller =>
    cases caller <;> constructor <;> grind -linarith
  | _ => constructor <;> grind -linarith

theorem runner (h : Accounted w) (hl : Lineage w) (hm : Runner.Move w x w') : Accounted w' := by
  obtain ⟨hearly, hpath, htell⟩ := h
  have hpresent : w.cgroup.present = false → w'.cgroup.present = false := by
    intro hp
    cases hm <;> first | exact hp | rfl
  rcases hm.sup with hs | ⟨⟨n, hpc⟩, -, hs⟩
  · exact ⟨by rwa [hs], fun hp => hpresent (hpath (hs ▸ hp)), by rwa [hs]⟩
  · have hunborn := hl.unforked ⟨n, hpc⟩
    have hforgot := hearly (by simp [hunborn, SupervisorPc.beforeCgroup])
    exact ⟨by simp [hs, Supervisor.go, hforgot], fun _ => hpresent (hpath hforgot),
      by simp [hs, Supervisor.go, SupervisorPc.telling]⟩

theorem keep (h : Accounted w) (hl : Lineage w) (hr : cgroupRefused w a = false)
    (hk : falselyMissing w a = false) (hm : Move w a w') : Accounted w' := by
  cases hm with
  | runner hm => exact h.runner hl hm
  | supervisor hm => exact h.supervisor hr hk hm
  | childA hm =>
    obtain ⟨hearly, hpath, htell⟩ := h
    have hp : w'.cgroup.present = w.cgroup.present := by cases hm <;> rfl
    rw [← hm.sup] at hearly hpath htell
    exact ⟨hearly, fun hf => hp.trans (hpath hf), htell⟩
  | childB hm =>
    obtain ⟨hearly, hpath, htell⟩ := h
    rw [← hm.sup, ← hm.cgroup] at *
    exact ⟨hearly, hpath, htell⟩
  | diedSupervisor =>
    obtain ⟨hearly, hpath, htell⟩ := h
    constructor <;> grind -linarith
  | _ => exact ⟨h.early, h.path, h.telling⟩

theorem init (q : Request) : Accounted (.init q) := ⟨fun _ => rfl, fun _ => rfl, nofun⟩

end Accounted

theorem Removed.keep (h : Removed w) (hl : Lineage w) (hm : Move w a w') : Removed w' := by
  obtain ⟨hpresent, hpc⟩ := h
  cases hm with
  | runner hm =>
    have hp : w'.cgroup.present = false := by cases hm <;> first | exact hpresent | rfl
    rcases hm.sup with hs | ⟨⟨n, hsetup⟩, -, -⟩
    · exact ⟨hp, by rw [hs]; exact hpc⟩
    · simp [hl.unforked ⟨n, hsetup⟩, SupervisorPc.beforeCgroup] at hpc
  | supervisor hm =>
    unfold Removed
    cases hm with
    | gotControl =>
      rcases w.sup.handleControl_cases
        (.ofBytes (w.toSup.pending.take headerSize)) with he | ⟨he, -⟩ | ⟨he, -⟩ | ⟨he, -⟩ <;>
        grind -linarith
    | @gotStatus r => cases r <;> grind -linarith
    | waitedA site | waitAFailed site => cases site <;> grind -linarith
    | @sent caller | @sendFailed _ caller | @openedKill caller | @killWritten caller
    | @killDenied _ caller | @killFailed _ caller | @removed caller | @removeBusy caller
    | @removeDenied caller | @removeFailed caller =>
      cases caller <;> grind -linarith
    | _ => grind -linarith
  | childA hm =>
    refine ⟨?_, by rw [hm.sup]; exact hpc⟩
    cases hm <;> exact hpresent
  | childB hm => exact ⟨by rw [hm.cgroup]; exact hpresent, by rw [hm.sup]; exact hpc⟩
  | diedSupervisor => exact ⟨hpresent, rfl⟩
  | _ => exact ⟨hpresent, hpc⟩

/-! ## What the runner learns -/

/-- Before the directory is gone, at most one message of each sender is out. -/
def Indebted (w : World) : Prop :=
  Removed w ∨ w.toRunner.sent.length + w.sup.pc.budget + w.childA.budget ≤ 56

/-- A supervisor that sends `Terminated` has removed the cgroup. -/
theorem Accounted.removed (h : Accounted w) (hpc : w.sup.pc.concluding = true) : Removed w := by
  have htelling : w.sup.pc.telling = true ∧ w.sup.pc.beforeCgroup = false := by
    cases hp : w.sup.pc <;>
      simp_all [SupervisorPc.concluding, SupervisorPc.telling, SupervisorPc.beforeCgroup]
    rename_i caller _
    cases caller <;> simp_all
  exact ⟨h.path (h.telling htelling.1), htelling.2⟩

namespace Indebted

theorem keep (h : Indebted w) (ha : Accounted w) (ha' : Accounted w') (hl : Lineage w)
    (hm : Move w a w') : Indebted w' := by
  rcases h with h | h
  · exact .inl (h.keep hl hm)
  by_cases hw : w.sup.pc.concluding = true
  · exact .inl ((ha.removed hw).keep hl hm)
  by_cases hw' : w'.sup.pc.concluding = true
  · exact .inl (ha'.removed hw')
  exact .inr (Budgeted.within (by simpa using hw) (by simpa using hw') h hl hm)

theorem init (q : Request) : Indebted (.init q) :=
  .inr (by simp [World.init, SupervisorPc.budget, SupervisorPc.phase, ChildA.budget])

/-- A `Terminated` that the runner takes is longer than everything else that was
sent. -/
theorem removed_of_terminated (h : Indebted w)
    (hlen : terminatedSize ≤ w.toRunner.pending.length) : Removed w := by
  rcases h with h | h
  · exact h
  · have : w.toRunner.pending.length ≤ w.toRunner.sent.length := by simp [Channel.sent]
    simp only [terminatedSize] at hlen
    omega

end Indebted

/-- The status of a run that reports how the submission ended. -/
def ExecutionStatus.reportsEnd : ExecutionStatus → Bool
  | completed | timedOut | signaled => true
  | sandboxFailure | runnerFailure => false

attribute [grind =] ExecutionStatus.reportsEnd

/-- Only a `Terminated` tells the runner that the submission has ended. -/
theorem Runner.Move.finishes (hm : Runner.Move w x w')
    (h : w'.runner.submission_finished = true) :
    w.runner.submission_finished = true ∨ terminatedSize ≤ w.toRunner.pending.length := by
  cases hm with
  | got site hlen =>
    cases site with
    | terminated => exact .inr hlen
    | _ => grind -linarith
  | lost site => cases site <;> grind -linarith
  | sent site | sendFailed site => cases site <;> grind -linarith
  | waited site | waitFailed site =>
    cases site with
    | @cleanup site => rcases site with _ | _ | _ | _ <;> grind -linarith
    | _ => grind -linarith
  | @killFailed _ site | @foundEmpty site | @foundPopulated _ site | @removeSkipped _ site
  | @removed site | @removeFailed _ site =>
    rcases site with _ | _ | _ | _ <;> grind -linarith
  | _ => grind -linarith

/-- What the runner reports, the supervisor has told it. -/
structure Credited (removed : Prop) (r : Runner) : Prop where
  ordered : r.Ordered
  finished : r.submission_finished = true → removed
  status : r.result.status.reportsEnd = true → removed

namespace Credited

theorem mono {removed removed' : Prop} {r : Runner} (h : Credited removed r)
    (hr : removed → removed') : Credited removed' r :=
  ⟨h.ordered, fun hf => hr (h.finished hf), fun hs => hr (h.status hs)⟩

theorem runner (h : Credited (Removed w) w.runner) (hi : Indebted w) (hl : Lineage w)
    (hm : Runner.Move w x w') : Credited (Removed w') w'.runner := by
  have hkeep : Removed w → Removed w' := fun hr => hr.keep hl (.runner hm)
  obtain ⟨hord, hfin, hstatus⟩ := h
  refine ⟨hord.move hm, fun hf => hkeep ?_, fun hs => hkeep ?_⟩
  · exact (hm.finishes hf).elim hfin hi.removed_of_terminated
  · cases hm.advance with
    | finished hpc =>
      rcases hpc with hpc | ⟨-, hf, -⟩
      · exact absurd hpc hord.reaping
      · exact hfin hf
    | failed hpc hpc' state status hst h => rw [h] at hs; grind -linarith
    | _ => grind -linarith

theorem keep (h : Credited (Removed w) w.runner) (hi : Indebted w) (hl : Lineage w)
    (hm : Move w a w') : Credited (Removed w') w'.runner := by
  rcases hm.runner_cases with ⟨x, rfl, hr⟩ | hr
  · exact h.runner hi hl hr
  · rw [hr]
    exact h.mono fun hrem => hrem.keep hl hm

theorem init (q : Request) : Credited (Removed (.init q)) (World.init q).runner :=
  ⟨⟨nofun, nofun, nofun, nofun, nofun, nofun⟩, nofun, nofun⟩

end Credited

/-- The host lets the supervisor use the cgroup that it has created, and `ENOENT`
means what it says. -/
def Permitted (w : World) (a : Act) : Prop :=
  cgroupRefused w a = false ∧ falselyMissing w a = false

instance (w : World) (a : Act) : Decidable (Permitted w a) := by
  unfold Permitted; infer_instance

/-- What a run with such a host keeps. -/
structure Tidy (w : World) : Prop where
  lineage : Lineage w
  accounted : Accounted w
  indebted : Indebted w
  credited : Credited (Removed w) w.runner

namespace Tidy

theorem keep (h : Tidy w) (hp : Permitted w a) (hm : Move w a w') : Tidy w' := by
  obtain ⟨hl, ha, hi, hc⟩ := h
  have ha' := ha.keep hl hp.1 hp.2 hm
  exact ⟨hl.keep hm, ha', hi.keep ha ha' hl hm, hc.keep hi hl hm⟩

theorem init (q : Request) : Tidy (.init q) :=
  ⟨Lineage.init q, Accounted.init q, Indebted.init q, Credited.init q⟩

theorem reach (h : Runs q acts w) (hp : Machine.Along step Permitted (.init q) acts) : Tidy w :=
  Machine.run_invariant (fun _ _ _ hp hs ht => hs.keep hp (moves_step ht)) (init q) hp h

end Tidy

theorem Supervisor.cleanupReturned_cgroup_path (s : Supervisor) (ok : Bool)
    (caller : CleanupCaller) : (s.cleanupReturned ok caller).cgroup_path = s.cgroup_path := by
  cases ok <;> cases caller <;> rfl

/-- After `setupCgroup` a forgotten path is not remembered. -/
theorem Supervisor.Move.forgets (hm : Supervisor.Move w x w') (hpc : w.sup.pc ≠ .mkdirCgroup)
    (h : w.sup.cgroup_path = false) : w'.sup.cgroup_path = false := by
  cases hm with
  | gotControl =>
    rcases w.sup.handleControl_cases
      (.ofBytes (w.toSup.pending.take headerSize)) with he | ⟨he, -⟩ | ⟨he, -⟩ | ⟨he, -⟩ <;>
      grind -linarith
  | @gotStatus r => cases r <;> grind -linarith
  | waitedA site | waitAFailed site => cases site <;> grind -linarith
  | @sent caller | @sendFailed _ caller | @openedKill caller | @killWritten caller
  | @killDenied _ caller | @killFailed _ caller | @removed caller | @removeBusy caller
  | @removeDenied caller | @removeFailed caller =>
    cases caller <;> grind -linarith
  | _ => grind -linarith

/-- `cleanupCgroup` returns true with an empty path only. -/
theorem forgotten_of_cleanupReturnsTrue (h : cleanupReturnsTrue w x = true)
    (ht : Supervisor.step w x = some w') : w'.sup.cgroup_path = false := by
  simp only [cleanupReturnsTrue, Bool.or_eq_true, Bool.and_eq_true] at h
  rcases h with ⟨hcall, hpath⟩ | ⟨hremove, hx⟩
  · refine (Supervisor.moves ht).forgets (fun hpc => ?_) (by simpa using hpath)
    simp [cleanupCalled, hpc] at hcall
  · obtain ⟨caller, retries, hpc⟩ : ∃ caller retries, w.sup.pc = .removeCgroup caller retries := by
      cases hp : w.sup.pc <;> simp_all
    simp only [Supervisor.step, hpc] at ht
    cases x with
    | ok =>
      simp only [Supervisor.removeCgroup] at ht
      split at ht <;> cases ht
      exact Supervisor.cleanupReturned_cgroup_path _ _ _
    | fail e =>
      have he : permission e = true := by simpa [Answer.failsWith] using hx
      have hne : e ≠ ENOENT ∧ e ≠ EBUSY := by
        constructor <;> rintro rfl <;> revert he <;> decide
      simp only [Supervisor.removeCgroup, if_neg hne.1, if_neg hne.2, he, if_true] at ht
      cases ht
      exact Supervisor.cleanupReturned_cgroup_path _ _ _
    | _ => simp [Supervisor.removeCgroup] at ht

/-- As long as the host does not refuse a call on the cgroup that it has let the
supervisor create, `cleanupCgroup` returns true only when the directory is gone,
and it is gone wherever `Terminated` is sent or the end of the submission is
reported. -/
theorem cleanup_removes (h : Runs q acts w)
    (hp : Machine.Along step Permitted (.init q) acts) :
    (∀ x w', Permitted w (.supervisor x) → step w (.supervisor x) = some w' →
      cleanupReturnsTrue w x = true → w'.cgroup.present = false) ∧
    (∀ writes, w.sup.pc = .send .terminated writes → w.cgroup.present = false) ∧
    (w.runner.result.status.reportsEnd = true → w.cgroup.present = false) := by
  have htidy := Tidy.reach h hp
  refine ⟨fun x w' hx ht htrue => ?_, fun writes hpc => ?_, fun hs => ?_⟩
  · have hm := moves_step ht
    cases hm with
    | supervisor hm =>
      exact (htidy.keep hx (.supervisor hm)).accounted.path
        (forgotten_of_cleanupReturnsTrue htrue ht)
  · exact (htidy.accounted.removed (by simp [hpc, SupervisorPc.concluding])).1
  · exact (htidy.credited.status hs).1

theorem cleanup_removes_completed :
    ∃ w : World, w.runner.result.status = .completed ∧ w.cgroup.present = false := by
  obtain ⟨w, hw, hs⟩ : ∃ w, Runs ⟨[], 1000, 0⟩ (completes 0) w ∧
      w.runner.result.status = .completed := exists_run (by decide +kernel)
  exact ⟨w, hs,
    (cleanup_removes hw (by decide +kernel)).2.2 (by simp [hs, ExecutionStatus.reportsEnd])⟩

/-- A host where the supervisor may create a cgroup but not move a process into
it. -/
def bootUnmoved : List Act :=
  List.replicate 6 (Act.runner .ok) ++ List.replicate 6 (Act.supervisor .ok) ++
    [Act.supervisor (.count 7), .supervisor .ok, .supervisor (.fail EACCES)] ++
    List.replicate 3 (Act.supervisor .ok) ++ List.replicate 2 (Act.runner .ok)

/-- The submission completes there all the same. -/
def completesUnmoved : List Act :=
  bootUnmoved ++ List.replicate 13 (Act.childA .ok) ++ List.replicate 15 (Act.childB .ok) ++
    Act.submission (.finish 0) :: List.replicate 5 (Act.childA .ok) ++
    [Act.supervisor (.ready false true), .supervisor .ok, .supervisor (.reap .zero),
      .supervisor .ok, .supervisor .ok, .runner .ok, .runner (.events { control := true }),
      .runner .ok, .runner .ok, .runner .ok, .runner .ok]

theorem cleanup_left_behind :
    ¬ ∀ (q : Request) (acts : List Act) (w : World), Runs q acts w →
      Machine.Along step (fun s a => falselyMissing s a = false) (.init q) acts →
      (∀ x w', falselyMissing w (.supervisor x) = false → step w (.supervisor x) = some w' →
        cleanupReturnsTrue w x = true → w'.cgroup.present = false) ∧
      (∀ writes, w.sup.pc = .send .terminated writes → w.cgroup.present = false) ∧
      (w.runner.result.status.reportsEnd = true → w.cgroup.present = false) := by
  intro h
  obtain ⟨w, hw, hs, hpresent⟩ : ∃ w, Runs ⟨[], 1000, 0⟩ completesUnmoved w ∧
      w.runner.result.status = .completed ∧ w.cgroup.present = true :=
    exists_run (by decide +kernel)
  have := (h _ _ w hw (by decide +kernel)).2.2 (by simp [hs, ExecutionStatus.reportsEnd])
  simp [hpresent] at this

end OnlineJudge
