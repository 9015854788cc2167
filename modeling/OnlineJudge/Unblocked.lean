import OnlineJudge.Lineage

/-!
# Nobody waits in vain

Who reads from a socket, waits for a child or reports a failure, in a run in which
the kill of `cleanup_failed_child` succeeds: something is there to be read, or will
be; the child was forked; and there is something left to report. Without that kill
Child A waits for a byte that never comes, since the supervisor that waits for it
holds the other end of the pipe.
-/

namespace OnlineJudge

variable {q : Request} {acts : List Act} {w w' : World} {x : Answer} {a : Act}

/-! ## What nobody waits for in vain -/

/-- The runner takes or will take messages from the control socket. -/
def RunnerPc.hearing : RunnerPc → Bool
  | receiveHeader | receivePayload _ | loop | sendTerminate | poll _ | readHeader | writeStdin
  | readStdout | readStderr => true
  | _ => false

/-- The supervisor kills Child A, or waits for it after a kill. -/
def SupervisorPc.tending : SupervisorPc → Bool
  | killChild | waitKilledChild | openKill .failure | writeKill .failure | failureKill
  | failureWait => true
  | _ => false

attribute [grind =] RunnerPc.hearing SupervisorPc.tending

/-- The kill of `cleanup_failed_child` fails. -/
def spares (w : World) : Act → Bool
  | .supervisor (.fail _) => w.sup.pc = .killChild
  | _ => false

/-- Who reads or waits does so with reason, and who reports has something left to
say. -/
structure Unblocked (w : World) : Prop where
  opened : ∀ n, w.runner.pc = .setup n → 2 ≤ n → w.runner.control_open = true
  hearing : w.runner.pc.hearing = true →
    w.runner.control_open = true ∨ w.runner.submission_finished = true
  forked : w.sup.pc = .unborn → (∃ n, w.runner.pc = .setup n) ∨ w.runner.pc = .returned
  orders : headerSize ∣ w.toSup.pending.length
  order : w.sup.pc = .readControl → w.toSup.pending ≠ [] ∨ w.runner.control_open = false
  sending : ∀ caller, w.sup.pc ≠ .send caller []
  tending : w.sup.pc.tending = true → w.childA ≠ .unborn
  shot : w.sup.pc = .waitKilledChild → w.childA.alive = true → w.killed.childA = true
  awaited : w.childA = .waitB → w.childB ≠ .unborn
  reportingA : ∀ onControl, w.childA ≠ .report onControl []
  forwarding : ∀ b_status, w.childA ≠ .forward b_status []
  reportingB : w.childB ≠ .report []

theorem Message.writes_ne_nil (m : Message) : m.writes ≠ [] := by simp [writes]

theorem FailureReport.writes_ne_nil (stage : SandboxSetupStage) (e : Errno)
    (report : FailureReport) : report.writes stage e ≠ [] := by
  cases report <;> simp [writes, Message.writes]

/-! ### The runner -/

namespace Runner

/-- The control socket is opened once, and closed for good. -/
theorem Move.hearing (hm : Move w x w') (hord : w.runner.Ordered)
    (hopen : ∀ n, w.runner.pc = .setup n → 2 ≤ n → w.runner.control_open = true)
    (hhear : w.runner.pc.hearing = true →
      w.runner.control_open = true ∨ w.runner.submission_finished = true) :
    w'.runner.pc.hearing = true →
      w'.runner.control_open = true ∨ w'.runner.submission_finished = true := by
  cases hm with
  | got site | lost site => cases site <;> grind -linarith
  | sent site | sendFailed site => cases site <;> grind -linarith
  | waited site | waitFailed site =>
    cases site with
    | @cleanup site => rcases site with _ | _ | _ | _ <;> grind -linarith
    | terminated hpc =>
      have := hord.settling hpc
      grind -linarith
    | _ => grind -linarith
  | @killFailed _ site | @foundEmpty site | @foundPopulated _ site | @removeSkipped _ site
  | @removed site | @removeFailed _ site =>
    rcases site with _ | _ | _ | _ <;> grind -linarith
  | _ => grind -linarith

theorem Move.opened (hm : Move w x w')
    (h : ∀ n, w.runner.pc = .setup n → 2 ≤ n → w.runner.control_open = true) :
    ∀ n, w'.runner.pc = .setup n → 2 ≤ n → w'.runner.control_open = true := by
  intro n hn
  obtain ⟨⟨k, hk⟩, -⟩ := hm.setup ⟨n, hn⟩
  cases hm with
  | again => exact h n hn
  | @setupDone m hpc hm =>
    intro h2
    cases hn
    by_cases hone : m = 1
    · simp [hone]
    · simp [h m hpc (by omega)]
  | got site | lost site => cases site <;> simp_all
  | sent site | sendFailed site => cases site <;> simp_all
  | waited site | waitFailed site => cases site <;> simp_all
  | setupFailed => cases hn
  | forked => cases hn
  | _ => simp_all

/-- The setup ends with the fork of the supervisor, or `run` returns. -/
theorem Move.of_setup (hm : Move w x w') {n : Nat} (hpc : w.runner.pc = .setup n) :
    (∃ n, w'.runner.pc = .setup n) ∨ w'.runner.pc = .returned ∨ w'.sup.pc = .mkdirCgroup := by
  cases hm with
  | again => exact .inl ⟨n, hpc⟩
  | @setupDone m => exact .inl ⟨m + 1, rfl⟩
  | forked => exact .inr (.inr rfl)
  | setupFailed => exact .inr (.inl rfl)
  | got site | lost site => cases site <;> simp_all
  | sent site | sendFailed site => cases site <;> simp_all
  | waited site | waitFailed site => cases site <;> simp_all
  | _ => simp_all

theorem Move.orders (hm : Move w x w') (h : headerSize ∣ w.toSup.pending.length) :
    headerSize ∣ w'.toSup.pending.length := by
  cases hm with
  | sent =>
    simp only [Channel.pending_put, List.length_append]
    exact Nat.dvd_add h (by decide)
  | _ => exact h

/-- What waits for the supervisor stays there for it. -/
theorem Move.order (hm : Move w x w') (h : w.toSup.pending ≠ []) : w'.toSup.pending ≠ [] := by
  cases hm with
  | sent => simp [h]
  | _ => exact h

/-- A closed control socket is opened by the setup alone. -/
theorem Move.control_open (hm : Move w x w') (h : w.runner.control_open = false) :
    w'.runner.control_open = false ∨ ∃ n, w.runner.pc = .setup n := by
  cases hm with
  | got site | lost site => cases site <;> grind -linarith
  | sent site | sendFailed site => cases site <;> grind -linarith
  | waited site | waitFailed site =>
    cases site with
    | @cleanup site => rcases site with _ | _ | _ | _ <;> grind -linarith
    | _ => grind -linarith
  | @killFailed _ site | @foundEmpty site | @foundPopulated _ site | @removeSkipped _ site
  | @removed site | @removeFailed _ site =>
    rcases site with _ | _ | _ | _ <;> grind -linarith
  | _ => grind -linarith

end Runner

/-! ### The supervisor -/

namespace Supervisor

/-- Only a `poll` that found the control socket ready leads to a read from it. -/
theorem Move.order (hm : Move w x w') (h : w'.sup.pc = .readControl) :
    w' = w ∨ w.toSup.pending ≠ [] ∧ w'.toSup = w.toSup ∨ w.runner.control_open = false := by
  cases hm with
  | again => exact .inl rfl
  | @polled control status hpc hcontrol =>
    cases control with
    | true => exact .inr ((hcontrol rfl).imp_left fun hne => ⟨hne, rfl⟩)
    | false => exact absurd h (by grind -linarith)
  | @sent caller | @sendFailed _ caller | @openedKill caller | @killWritten caller
  | @killDenied _ caller
  | @killFailed _ caller | @removed caller | @removeBusy caller | @removeDenied caller
  | @removeFailed caller =>
    cases caller <;> exact absurd h (by grind -linarith)
  | gotControl =>
    refine absurd h ?_
    rcases w.sup.handleControl_cases
      (.ofBytes (w.toSup.pending.take headerSize)) with he | ⟨he, -⟩ | ⟨he, -⟩ | ⟨he, -⟩ <;>
      simp only [he] <;> grind -linarith
  | @gotStatus r => cases r <;> exact absurd h (by grind -linarith)
  | waitedA site | waitAFailed site => cases site <;> exact absurd h (by grind -linarith)
  | _ => exact absurd h (by grind -linarith)

theorem Move.orders (hm : Move w x w') (h : headerSize ∣ w.toSup.pending.length) :
    headerSize ∣ w'.toSup.pending.length := by
  cases hm with
  | gotControl hpc hlen =>
    simp only [Channel.pending_take, List.length_drop]
    exact Nat.dvd_sub h (Nat.dvd_refl headerSize)
  | _ => exact h

/-- A message is sent from its first byte to its last. -/
theorem Move.sending (hm : Move w x w') (h : ∀ caller, w.sup.pc ≠ .send caller []) :
    ∀ caller, w'.sup.pc ≠ .send caller [] := by
  have hne := Message.writes_ne_nil
  have hfail := fun stage e => FailureReport.writes_ne_nil stage e .failSetup
  cases hm with
  | @sent caller | @sendFailed _ caller | @openedKill caller | @killWritten caller
  | @killDenied _ caller
  | @killFailed _ caller | @removed caller | @removeBusy caller | @removeDenied caller
  | @removeFailed caller =>
    cases caller <;> grind -linarith
  | gotControl =>
    rcases w.sup.handleControl_cases
      (.ofBytes (w.toSup.pending.take headerSize)) with he | ⟨he, -⟩ | ⟨he, -⟩ | ⟨he, -⟩ <;>
      simp only [he] <;> grind -linarith
  | @gotStatus r => cases r <;> grind -linarith
  | waitedA site | waitAFailed site => cases site <;> grind -linarith
  | _ => grind -linarith

theorem Move.ne_unborn (hm : Move w x w') : w' = w ∨ w'.sup.pc ≠ .unborn := by
  cases hm with
  | again => exact .inl rfl
  | @sent caller | @sendFailed _ caller | @openedKill caller | @killWritten caller
  | @killDenied _ caller
  | @killFailed _ caller | @removed caller | @removeBusy caller | @removeDenied caller
  | @removeFailed caller =>
    cases caller <;> exact .inr (by grind -linarith)
  | gotControl =>
    refine .inr ?_
    rcases w.sup.handleControl_cases
      (.ofBytes (w.toSup.pending.take headerSize)) with he | ⟨he, -⟩ | ⟨he, -⟩ | ⟨he, -⟩ <;>
      simp only [he] <;> grind -linarith
  | @gotStatus r => cases r <;> exact .inr (by grind -linarith)
  | waitedA site | waitAFailed site => cases site <;> exact .inr (by grind -linarith)
  | _ => exact .inr (by grind -linarith)

/-- Child A is killed and waited for only after it was forked. -/
theorem Move.tending (hm : Move w x w') (h : w'.sup.pc.tending = true) :
    w'.childA = w.childA ∧ (w.sup.pc.tending = true ∨ w.sup.pc.phase = .attaching ∨
      w.sup.pc.phase = .started) := by
  cases hm with
  | @sent caller | @sendFailed _ caller | @openedKill caller | @killWritten caller
  | @killDenied _ caller
  | @killFailed _ caller | @removed caller | @removeBusy caller | @removeDenied caller
  | @removeFailed caller =>
    cases caller <;> grind -linarith
  | gotControl =>
    rcases w.sup.handleControl_cases
      (.ofBytes (w.toSup.pending.take headerSize)) with he | ⟨he, -⟩ | ⟨he, -⟩ | ⟨he, -⟩ <;>
      simp only [he] at h <;> grind -linarith
  | @gotStatus r => cases r <;> grind -linarith
  | waitedA site | waitAFailed site => cases site <;> grind -linarith
  | _ => grind -linarith

/-- The wait of `cleanup_failed_child` follows its kill. -/
theorem Move.shot (hm : Move w x w') (hspare : spares w (.supervisor x) = false)
    (h : w'.sup.pc = .waitKilledChild) :
    w' = w ∨ w'.childA = w.childA ∧ (w.childA.alive = true → w'.killed.childA = true) := by
  cases hm with
  | again => exact .inl rfl
  | killedA => exact .inr ⟨rfl, fun ha => by simp [ha]⟩
  | killAFailed hpc =>
    obtain ⟨hpc, rfl⟩ | ⟨hpc, rfl⟩ := hpc
    · simp [spares, hpc] at hspare
    · simp [go] at h
  | @sent caller | @sendFailed _ caller | @openedKill caller | @killWritten caller
  | @killDenied _ caller
  | @killFailed _ caller | @removed caller | @removeBusy caller | @removeDenied caller
  | @removeFailed caller =>
    cases caller <;> exact absurd h (by grind -linarith)
  | gotControl =>
    refine absurd h ?_
    rcases w.sup.handleControl_cases
      (.ofBytes (w.toSup.pending.take headerSize)) with he | ⟨he, -⟩ | ⟨he, -⟩ | ⟨he, -⟩ <;>
      simp only [he] <;> grind -linarith
  | @gotStatus r => cases r <;> exact absurd h (by grind -linarith)
  | waitedA site | waitAFailed site => cases site <;> exact absurd h (by grind -linarith)
  | _ => exact absurd h (by grind -linarith)

end Supervisor

namespace Unblocked

theorem runner (h : Unblocked w) (hl : Lineage w) (hord : w.runner.Ordered)
    (hm : Runner.Move w x w') : Unblocked w' := by
  obtain ⟨hopen, hhear, hfork, horders, horder, hsend, htend, hshot, hwait, hrA, hfA, hrB⟩ := h
  have hcontrol := hm.control_open
  have hsetup := hm.setup
  have horder' := hm.order
  have hkilled := hm.killed_mono
  refine ⟨hm.opened hopen, hm.hearing hord hopen hhear, ?_, hm.orders horders, ?_, ?_, ?_, ?_,
    ?_, ?_, ?_, ?_⟩
  · intro hpc
    rcases hm.sup with hs | ⟨-, -, hs⟩
    · rcases hfork (hs ▸ hpc) with ⟨n, hn⟩ | hret
      · rcases hm.of_setup hn with hn' | hret | hborn
        · exact .inl hn'
        · exact .inr hret
        · rw [hpc] at hborn
          cases hborn
      · exact .inr (by rw [hm.of_returned hret]; exact hret)
    · rw [hs] at hpc
      cases hpc
  · rcases hm.sup with hs | ⟨-, -, hs⟩
    · rw [hs]
      intro hpc
      rcases horder hpc with hne | hclosed
      · exact .inl (horder' hne)
      · refine .inr ((hcontrol hclosed).resolve_right fun hn => ?_)
        simp [hl.unforked hn] at hpc
    · rw [hs]
      rintro ⟨⟩
  · rcases hm.sup with hs | ⟨-, -, hs⟩ <;> rw [hs]
    · exact hsend
    · rintro caller ⟨⟩
  · rcases hm.sup with hs | ⟨-, -, hs⟩ <;> rw [hs, hm.childA]
    · exact htend
    · rintro ⟨⟩
  · rcases hm.sup with hs | ⟨-, -, hs⟩ <;> rw [hs, hm.childA]
    · exact fun hpc ha => hkilled.1 (hshot hpc ha)
    · rintro ⟨⟩
  · rw [hm.childA, hm.childB]; exact hwait
  · rw [hm.childA]; exact hrA
  · rw [hm.childA]; exact hfA
  · rw [hm.childB]; exact hrB

theorem supervisor (h : Unblocked w) (hl : Lineage w) (hspare : spares w (.supervisor x) = false)
    (hm : Supervisor.Move w x w') : Unblocked w' := by
  obtain ⟨hopen, hhear, hfork, horders, horder, hsend, htend, hshot, hwait, hrA, hfA, hrB⟩ := h
  have hborn : w'.childA = w.childA ∨ w'.childA = .awaitRelease ∧ w.childA = .unborn := by
    cases hm.phases with
    | forked hp _ ha => exact .inr ⟨ha, hl.unborn hp⟩
    | same _ ha | released _ _ ha | «over» _ ha => exact .inl ha
  refine ⟨?_, ?_, ?_, hm.orders horders, ?_, hm.sending hsend, ?_, ?_, ?_, ?_, ?_, ?_⟩
  · rw [hm.runner]; exact hopen
  · rw [hm.runner]; exact hhear
  · intro hpc
    rw [hm.runner]
    rcases hm.ne_unborn with rfl | hne
    · exact hfork hpc
    · exact absurd hpc hne
  · intro hpc
    rw [hm.runner]
    rcases hm.order hpc with rfl | ⟨hne, hs⟩ | hclosed
    · exact horder hpc
    · exact .inl (hs ▸ hne)
    · exact .inr hclosed
  · intro hpc
    obtain ⟨ha, hp⟩ := hm.tending hpc
    rw [ha]
    rcases hp with hp | hp | hp
    · exact htend hp
    · exact hl.born (.inl hp)
    · exact hl.born (.inr hp)
  · intro hpc ha
    rcases hm.shot hspare hpc with rfl | ⟨hA, hk⟩
    · exact hshot hpc ha
    · exact hk (hA ▸ ha)
  · rw [hm.childB]
    rcases hborn with ha | ⟨ha, -⟩ <;> rw [ha]
    · exact hwait
    · rintro ⟨⟩
  · rcases hborn with ha | ⟨ha, -⟩ <;> rw [ha]
    · exact hrA
    · rintro onControl ⟨⟩
  · rcases hborn with ha | ⟨ha, -⟩ <;> rw [ha]
    · exact hfA
    · rintro b_status ⟨⟩
  · rw [hm.childB]; exact hrB

theorem childA (h : Unblocked w) (hm : ChildA.Move w x w') : Unblocked w' := by
  obtain ⟨hopen, hhear, hfork, horders, horder, hsend, htend, hshot, hwait, hrA, hfA, hrB⟩ := h
  have hne := FailureReport.writes_ne_nil
  cases hm with
  | released => constructor <;> grind -linarith [childASetup, ChildA.next]
  | @setupDone _ rest => have := ChildA.next_cases rest; constructor <;> grind -linarith
  | forked => have := ChildB.next_cases childBSetup; constructor <;> grind -linarith
  | _ => constructor <;> grind -linarith

theorem childB (h : Unblocked w) (hm : ChildB.Move w x w') : Unblocked w' := by
  obtain ⟨hopen, hhear, hfork, horders, horder, hsend, htend, hshot, hwait, hrA, hfA, hrB⟩ := h
  have hne := FailureReport.writes_ne_nil
  cases hm with
  | @setupDone _ rest => have := ChildB.next_cases rest; constructor <;> grind -linarith
  | _ => constructor <;> grind -linarith

theorem keep (h : Unblocked w) (hl : Lineage w) (hord : w.runner.Ordered)
    (hspare : spares w a = false) (hm : Move w a w') : Unblocked w' := by
  cases hm with
  | runner hm => exact h.runner hl hord hm
  | supervisor hm => exact h.supervisor hl hspare hm
  | childA hm => exact h.childA hm
  | childB hm => exact h.childB hm
  | _ =>
    obtain ⟨hopen, hhear, hfork, horders, horder, hsend, htend, hshot, hwait, hrA, hfA, hrB⟩ := h
    constructor <;> grind -linarith

theorem init (q : Request) : Unblocked (.init q) := by
  constructor <;> simp [World.init, RunnerPc.hearing, SupervisorPc.tending]

end Unblocked

end OnlineJudge
