import OnlineJudge.Lineage

/-!
# Custody

While the runner watches, a child that is killed in the supervisor's loop is
killed through the cgroup, and the supervisor does not send `Terminated` before
that cgroup is empty. So a `Terminated` that the runner decodes means that the
submission is gone.
-/

namespace OnlineJudge

variable {q : Request} {acts : List Act} {w w' : World} {x : Answer} {a : Act}

/-- Child A was forked and has ended, and Child B does not run: nothing can
bring either back. -/
def Gone (w : World) : Prop := (∃ s, w.childA = .exited s) ∧ w.childB.alive = false

theorem Gone.keep (h : Gone w) (hl : Lineage w) (hm : Move w a w') : Gone w' := by
  obtain ⟨⟨s, hs⟩, hb⟩ := h
  have hunborn := hl.unborn
  unfold Gone
  cases hm with
  | supervisor hm => cases hm.phases <;> grind -linarith
  | childA hm => cases hm <;> grind -linarith
  | childB hm => cases hm <;> grind -linarith
  | _ => grind -linarith

/-! ## Kills and removals -/

namespace SupervisorPc

/-- In the loop, where only `terminate` kills. -/
def steady : SupervisorPc → Bool
  | send .ready _ | poll | readControl | openKill .loop | writeKill .loop | readStatus
  | waitNoHang => true
  | _ => false

/-- `cleanupCgroup` after Child A was reaped. -/
def removing : SupervisorPc → Bool
  | removeCgroup .finished _ => true
  | _ => false

/-- Sending `Terminated`. -/
def concluding : SupervisorPc → Bool
  | send .terminated _ => true
  | _ => false

end SupervisorPc

attribute [grind =] SupervisorPc.steady SupervisorPc.removing SupervisorPc.concluding

/-- The cgroup is there, holds Child A, and the supervisor knows of it. -/
def Caging (w : World) : Prop :=
  w.sup.cgroup_path = true ∧ w.cgroup.present = true ∧ w.cgroup.hasA = true

/-- A kill in the loop goes through the cgroup, and comes only once. -/
structure Leash (w : World) : Prop where
  early : w.sup.pc.phase = .before ∨ w.sup.pc.phase = .attaching → w.killed.childA = false
  killed : w.sup.pc.steady = true → w.killed.childA = true →
    w.sup.termination_requested = true ∧ Caging w
  killing : w.sup.pc = .openKill .loop ∨ w.sup.pc = .writeKill .loop →
    w.sup.termination_requested = false ∧ w.sup.cgroup_path = true

theorem Leash.supervisor (h : Leash w) (hm : Supervisor.Move w x w') : Leash w' := by
  obtain ⟨hearly, hkilled, hkilling⟩ := h
  unfold Caging at hkilled
  cases hm with
  | gotControl =>
    rcases w.sup.handleControl_cases
      (.ofBytes (w.toSup.pending.take headerSize)) with he | he | he | he <;>
      constructor <;> grind -linarith [Caging]
  | @gotStatus r => cases r <;> constructor <;> grind -linarith [Caging]
  | waitedA site | waitAFailed site => cases site <;> constructor <;> grind -linarith [Caging]
  | @sent caller | @sendFailed _ caller | @openedKill caller | @killWritten caller
  | @killDenied _ caller | @killFailed _ caller | @removed caller | @removeBusy caller
  | @removeDenied caller | @removeFailed caller =>
    cases caller <;> constructor <;> grind -linarith [Caging]
  | _ => constructor <;> grind -linarith [Caging]

/-- The cgroup that `cleanupCgroup` removes after Child A was reaped holds what
is left of the submission. -/
structure Custody (w : World) : Prop where
  leash : Leash w
  removing : w.sup.pc.removing = true →
    (∃ s, w.childA = .exited s) ∧
      (w.childB.alive = true → w.cgroup.present = true ∧ w.cgroup.hasB = true)
  concluding : w.sup.pc.concluding = true → Gone w

/-- `rmdir` is refused while Child B runs. -/
def removalDenied (w : World) : Act → Bool
  | .supervisor x => x.failsWith permission && w.sup.pc.removing && w.childB.alive
  | _ => false

namespace Custody

/-- A Child B that outlives Child A was left behind by the kill of the cgroup. -/
theorem caged (h : Leash w) (hl : Lineage w) (hpc : w.sup.pc = .waitNoHang)
    (ha : w.childA.alive = false) (hb : w.childB.alive = true) :
    w.sup.cgroup_path = true ∧ w.cgroup.present = true ∧ w.cgroup.hasB = true := by
  have hk := hl.orphaned ha hb
  obtain ⟨-, hpath, hpresent, hasA⟩ := h.killed (by simp [hpc, SupervisorPc.steady]) hk
  have htog := hl.together (by rintro hu; simp [hu, ChildB.alive] at hb)
  exact ⟨hpath, hpresent, htog.trans hasA⟩

theorem supervisor (h : Custody w) (hl : Lineage w)
    (hd : removalDenied w (.supervisor x) = false) (hm : Supervisor.Move w x w') : Custody w' := by
  refine ⟨h.leash.supervisor hm, ?_, ?_⟩
  · have hr := h.removing
    have hc := caged h.leash hl
    clear hd hl h
    cases hm with
    | gotControl =>
      rcases w.sup.handleControl_cases
        (.ofBytes (w.toSup.pending.take headerSize)) with he | he | he | he <;> grind -linarith
    | @gotStatus r => cases r <;> grind -linarith
    | waitedA site | waitAFailed site => cases site <;> grind -linarith
    | @sent caller | @sendFailed _ caller | @openedKill caller | @killWritten caller
    | @killDenied _ caller | @killFailed _ caller | @removed caller | @removeBusy caller
    | @removeDenied caller | @removeFailed caller =>
      cases caller <;> grind -linarith
    | _ => grind -linarith
  · have ht := h.concluding
    have hr := h.removing
    have hc := caged h.leash hl
    clear hl h
    unfold Gone at *
    cases hm with
    | @removed caller =>
      clear hd
      cases caller <;> grind -linarith [World.populated]
    | @removeDenied caller _ _ hpc he =>
      simp only [removalDenied, Answer.failsWith, he, Bool.true_and] at hd
      cases caller <;> grind -linarith
    | gotControl =>
      clear hd
      rcases w.sup.handleControl_cases
        (.ofBytes (w.toSup.pending.take headerSize)) with he | he | he | he <;> grind -linarith
    | @gotStatus r => clear hd; cases r <;> grind -linarith
    | waitedA site | waitAFailed site => clear hd; cases site <;> grind -linarith
    | @sent caller | @sendFailed _ caller | @openedKill caller | @killWritten caller
    | @killDenied _ caller | @killFailed _ caller | @removeBusy caller | @removeFailed caller =>
      clear hd
      cases caller <;> grind -linarith
    | _ => clear hd; grind -linarith

theorem runner (h : Custody w) (hl : Lineage w) (hm : Runner.Move w x w')
    (hw : w'.runner.pc.watching = true) : Custody w' := by
  obtain ⟨-, hk, hc⟩ := hm.watching hw
  have hgone : Gone w → Gone w' := fun hg => hg.keep hl (.runner hm)
  have hA := hm.childA
  have hB := hm.childB
  have hfork := hl.unforked
  obtain ⟨⟨hearly, hkilled, hkilling⟩, hr, ht⟩ := h
  rcases hm.sup with hs | ⟨hpc, -, hs⟩
  · refine ⟨⟨?_, ?_, ?_⟩, ?_, ?_⟩ <;> grind -linarith [Caging]
  · have hu := hfork hpc
    refine ⟨⟨?_, ?_, ?_⟩, ?_, ?_⟩ <;> grind -linarith

theorem keep (h : Custody w) (hl : Lineage w) (hd : removalDenied w a = false) (hm : Move w a w')
    (hw : w'.runner.pc.watching = true) : Custody w' := by
  cases hm with
  | runner hm => exact h.runner hl hm hw
  | supervisor hm => exact h.supervisor hl hd hm
  | childA hm =>
    obtain ⟨⟨hearly, hkilled, hkilling⟩, hr, ht⟩ := h
    have hgone : Gone w → Gone w' := fun hg => hg.keep hl (.childA hm)
    clear hd hl
    cases hm <;> refine ⟨⟨?_, ?_, ?_⟩, ?_, ?_⟩ <;> grind -linarith [Caging]
  | childB hm =>
    obtain ⟨⟨hearly, hkilled, hkilling⟩, hr, ht⟩ := h
    have hgone : Gone w → Gone w' := fun hg => hg.keep hl (.childB hm)
    clear hd hl
    cases hm <;> refine ⟨⟨?_, ?_, ?_⟩, ?_, ?_⟩ <;> grind -linarith [Caging]
  | _ =>
    obtain ⟨⟨hearly, hkilled, hkilling⟩, hr, ht⟩ := h
    clear hd hl
    refine ⟨⟨?_, ?_, ?_⟩, ?_, ?_⟩ <;> grind -linarith [Caging, Gone]

theorem init (q : Request) : Custody (.init q) :=
  ⟨⟨fun _ => rfl, nofun, nofun⟩, nofun, nofun⟩

end Custody

/-! ## A bound on what is sent

Everything but `Terminated` that can be written to the control socket is shorter
than its payload: whatever the runner takes for one, it has the real one. -/

theorem length_ready (p : SandboxReadyPayload) : (Message.ready p).writes.flatten.length = 24 := by
  simp [Message.bytes, Message.ready, headerSize, readySize]

theorem length_setupFailed (p : SandboxSetupFailedPayload) :
    (Message.setupFailed p).writes.flatten.length = 16 := by
  simp [Message.bytes, Message.setupFailed, headerSize, setupFailedSize]

theorem length_failSetup (stage : SandboxSetupStage) (e : Errno) :
    (FailureReport.failSetup.writes stage e).flatten.length = 16 :=
  length_setupFailed _

/-- How much a supervisor may still send before it sends `Terminated`. -/
def SupervisorPc.budget : SupervisorPc → Nat
  | send .ready writes => writes.flatten.length + 16
  | send .terminated _ => 0
  | send _ writes => writes.flatten.length
  | pc =>
    match pc.phase with
    | .before | .attaching => 40
    | .started => 16
    | .over => 0

/-- How much Child A may still send on the control socket. -/
def ChildA.budget : ChildA → Nat
  | unborn | awaitRelease | setup _ _ => 16
  | report true writes => writes.flatten.length
  | _ => 0

attribute [grind =] SupervisorPc.budget ChildA.budget

/-- Before the submission is gone, at most one message of each sender is out. -/
def Budgeted (w : World) : Prop :=
  Gone w ∨ w.toRunner.sent.length + w.sup.pc.budget + w.childA.budget ≤ 56

attribute [local grind =] List.flatten_cons List.flatten_nil List.length_append
  length_ready length_setupFailed length_failSetup

theorem length_report_le (r : FailureReport) (stage : SandboxSetupStage) (e : Errno) :
    (r.writes stage e).flatten.length ≤ 16 := by
  cases r with
  | failSetup => exact Nat.le_of_eq (length_failSetup stage e)
  | reportFailure => simp [FailureReport.writes, setupFailedSize]

namespace Budgeted

theorem supervisor (hw : w.sup.pc.concluding = false) (hw' : w'.sup.pc.concluding = false)
    (h : w.toRunner.sent.length + w.sup.pc.budget + w.childA.budget ≤ 56) (hl : Lineage w)
    (hm : Supervisor.Move w x w') :
    w'.toRunner.sent.length + w'.sup.pc.budget + w'.childA.budget ≤ 56 := by
  have hborn := hl.unborn
  clear hl
  cases hm with
  | gotControl =>
    rcases w.sup.handleControl_cases
      (.ofBytes (w.toSup.pending.take headerSize)) with he | he | he | he <;> grind -linarith
  | @gotStatus r => cases r <;> grind -linarith
  | waitedA site | waitAFailed site => cases site <;> grind -linarith
  | @sent caller | @sendFailed _ caller | @openedKill caller | @killWritten caller
  | @killDenied _ caller | @killFailed _ caller | @removed caller | @removeBusy caller
  | @removeDenied caller | @removeFailed caller =>
    cases caller <;> grind -linarith
  | _ => grind -linarith

theorem childA (h : w.toRunner.sent.length + w.sup.pc.budget + w.childA.budget ≤ 56)
    (hm : ChildA.Move w x w') :
    w'.toRunner.sent.length + w'.sup.pc.budget + w'.childA.budget ≤ 56 := by
  cases hm with
  | released => grind -linarith [childASetup, ChildA.next]
  | @setupDone _ rest => have := ChildA.next_cases rest; grind -linarith
  | @setupFailed call _ e =>
    have := length_report_le call.report call.stage e
    cases call.onControl <;> grind -linarith
  | _ => grind -linarith

/-- Anyone's step keeps the balance, unless it is about `Terminated`. -/
theorem within (hw : w.sup.pc.concluding = false) (hw' : w'.sup.pc.concluding = false)
    (h : w.toRunner.sent.length + w.sup.pc.budget + w.childA.budget ≤ 56) (hl : Lineage w)
    (hm : Move w a w') : w'.toRunner.sent.length + w'.sup.pc.budget + w'.childA.budget ≤ 56 := by
  cases hm with
  | supervisor hm => exact supervisor hw hw' h hl hm
  | childA hm => exact childA h hm
  | runner hm =>
    have hA := hm.childA
    have hsent := hm.toRunner_sent
    rcases hm.sup with hs | ⟨hpc, -, hs⟩
    · grind -linarith
    · have := hl.unforked hpc
      grind -linarith
  | _ => grind -linarith

theorem keep (h : Budgeted w) (hc : Custody w) (hc' : Custody w') (hl : Lineage w)
    (hm : Move w a w') : Budgeted w' := by
  rcases h with h | h
  · exact .inl (h.keep hl hm)
  by_cases hw : w.sup.pc.concluding = true
  · exact .inl ((hc.concluding hw).keep hl hm)
  by_cases hw' : w'.sup.pc.concluding = true
  · exact .inl (hc'.concluding hw')
  exact .inr (within (by simpa using hw) (by simpa using hw') h hl hm)

theorem init (q : Request) : Budgeted (.init q) :=
  .inr (by simp [World.init, SupervisorPc.budget, SupervisorPc.phase, ChildA.budget])

end Budgeted

end OnlineJudge
