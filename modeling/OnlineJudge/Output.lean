import OnlineJudge.System

/-!
# Captured output

What `ProcessRunner::run` returns as `stdout_output` and `stderr_output`, and
what the submission wrote. The control branch of an iteration comes before the
read branches, and `Terminated` closes the pipes: bytes still waiting there are
never read.
-/

namespace OnlineJudge

/-- The step that settles a `Terminated` message and closes the pipes finds
both output pipes read dry. -/
def Drained (w : World) (a : Act) : Prop :=
  a = .runner .ok ∧ w.runner.pc = .finishTerminated → w.stdout.pending = [] ∧ w.stderr.pending = []

instance (w : World) (a : Act) : Decidable (Drained w a) := by
  unfold Drained; infer_instance

/-- The captured output is what was taken from the pipes, and a completed run
returns it. -/
structure Capture (w : World) : Prop where
  ordered : Runner.Ordered w.runner
  out : w.runner.stdout_output = w.stdout.taken
  err : w.runner.stderr_output = w.stderr.taken
  running : w.runner.pc ≠ .returned → w.runner.result.status = .runnerFailure
  completed : w.runner.result.status = .completed →
    w.runner.stdout_open = false ∧ w.runner.stderr_open = false ∧
    w.runner.result.stdout_output = w.runner.stdout_output ∧
    w.runner.result.stderr_output = w.runner.stderr_output

/-- A pipe that is closed on unread bytes. -/
def Stuck (w : World) : Prop :=
  w.runner.stdout_open = false ∧ w.stdout.pending ≠ [] ∨
    w.runner.stderr_open = false ∧ w.stderr.pending ≠ []

/-- Only a failed execution leaves a pipe closed on unread bytes. -/
def Emptied (w : World) : Prop :=
  Stuck w → w.runner.pc = .returned ∧ w.runner.result.status ≠ .completed

variable {q : Request} {acts : List Act} {w w' : World} {x : Answer} {a : Act}

namespace Capture

theorem runner (h : Capture w) (hm : Runner.Move w x w') : Capture w' := by
  obtain ⟨hord, hout, herr, hrun, hdone⟩ := h
  obtain ⟨hso, hse, hto, hte, -, -⟩ := hm.streams
  refine ⟨hord.move hm, ?_, ?_, ?_, ?_⟩
  · rcases hto with ⟨h1, h2⟩ | ⟨n, -, -, h1, h2⟩
    · rw [h1, h2, hout]
    · rw [h1, h2]; simp [Runner.gotStdout, hout]
  · rcases hte with ⟨h1, h2⟩ | ⟨n, -, -, h1, h2⟩
    · rw [h1, h2, herr]
    · rw [h1, h2]; simp [Runner.gotStderr, herr]
  · cases hm.advance <;> grind -linarith
  · have hclosed := hord.reaping
    cases hm.advance with
    | finished hpc hpc' hr =>
      intro _
      have hc : w.runner.stdout_open = false ∧ w.runner.stderr_open = false := by grind -linarith
      have hto' : w'.runner.stdout_output = w.runner.stdout_output := by grind -linarith
      have hte' : w'.runner.stderr_output = w.runner.stderr_output := by grind -linarith
      rw [hr, hto', hte']
      exact ⟨by grind -linarith, by grind -linarith, rfl, rfl⟩
    | _ => grind -linarith

theorem keep (h : Capture w) (hm : Move w a w') : Capture w' := by
  cases hm with
  | runner hm => exact h.runner hm
  | _ => obtain ⟨hord, hout, herr, hrun, hdone⟩ := h; constructor <;> grind -linarith

theorem init (q : Request) : Capture (.init q) :=
  ⟨⟨nofun, nofun, nofun, nofun, nofun, nofun⟩, rfl, rfl, fun _ => rfl, nofun⟩

theorem reach (h : Runs q acts w) : Capture w :=
  Machine.run_keeps (fun _ _ _ hw ht => hw.keep (moves_step ht)) (init q) h

end Capture

theorem Stuck.keep (hc : Capture w) (h : Stuck w) (hm : Move w a w') : Stuck w' := by
  unfold Stuck at h ⊢
  cases hm with
  | runner hm =>
    obtain ⟨hso, hse, hto, hte, -, -⟩ := hm.streams
    have hro := hc.ordered.stdout
    have hre := hc.ordered.stderr
    grind -linarith
  | _ => grind -linarith

/-- A step that closes a pipe on unread bytes ends the run with a failure. -/
theorem Emptied.runner (hc : Capture w) (h : Emptied w) (hd : Drained w (.runner x))
    (hm : Runner.Move w x w') : Emptied w' := by
  obtain ⟨hso, hse, hto, hte, hoc, hec⟩ := hm.streams
  have hro := hc.ordered.stdout
  have hre := hc.ordered.stderr
  have hreap := hc.ordered.reaping
  have hrun := hc.running
  intro hs
  by_cases hw : Stuck w
  · obtain ⟨hpc, hst⟩ := h hw
    cases hm.advance <;> grind -linarith
  · have hret : w.runner.pc ≠ .returned ∧ w'.runner.pc = .returned ∧
        (w.runner.stdout_open = true ∨ w.runner.stderr_open = true) := by
      unfold Stuck at hs hw
      unfold Drained at hd
      grind -linarith
    cases hm.advance <;> grind -linarith

theorem Emptied.keep (hc : Capture w) (h : Emptied w) (hd : Drained w a) (hm : Move w a w') :
    Emptied w' := by
  cases hm with
  | runner hm => exact h.runner hc hd hm
  | _ => unfold Emptied Stuck at h ⊢; grind -linarith

/-- The run of a request keeps `Emptied` while it drains the pipes. -/
theorem Emptied.reach (h : Runs q acts w) (hd : Machine.Along step Drained (.init q) acts) :
    Emptied w := by
  have hkeep : Capture w ∧ Emptied w := by
    refine Machine.run_invariant (P := Drained) (I := fun s => Capture s ∧ Emptied s)
      (fun s b t hp hw ht => ?_) ?_ hd h
    · exact ⟨hw.1.keep (moves_step ht), hw.2.keep hw.1 hp (moves_step ht)⟩
    · exact ⟨Capture.init q, by simp [Emptied, Stuck, World.init]⟩
  exact hkeep.2

theorem Stuck.run {acts : List Act} (hc : Capture w) (h : Stuck w)
    (hr : Machine.run step w acts = some w') : Stuck w' := by
  have hkeep : Capture w' ∧ Stuck w' :=
    Machine.run_keeps (I := fun s => Capture s ∧ Stuck s)
      (fun s b t hw ht => ⟨hw.1.keep (moves_step ht), hw.2.keep hw.1 (moves_step ht)⟩) ⟨hc, h⟩ hr
  exact hkeep.2

/-- Settling `Terminated` over unread bytes closes a pipe on them. -/
theorem stuck_of_not_drained (h : ¬ Drained w a) (ht : step w a = some w') :
    Stuck w' ∨ w'.runner.pc = .returned ∧ w'.runner.result.status = .runnerFailure := by
  simp only [Drained, Classical.not_imp] at h
  obtain ⟨⟨rfl, hpc⟩, hp⟩ := h
  simp only [step, Runner.step, hpc, Runner.waitSupervisor] at ht
  unfold Stuck
  split at ht
  · split at ht <;> cases ht <;> grind -linarith
  · cases ht

theorem not_stuck_iff (hout : w.runner.stdout_open = false) (herr : w.runner.stderr_open = false) :
    ¬ Stuck w ↔ w.stdout.taken = w.stdout.sent ∧ w.stderr.taken = w.stderr.sent := by
  simp [Stuck, hout, herr, Channel.taken_eq_sent_iff]

/-- A completed run returns exactly what was written iff it read both pipes dry
before it settled `Terminated`. -/
theorem completed_output_iff (h : Runs q acts w)
    (hdone : w.runner.result.status = .completed) :
    w.runner.result.stdout_output = w.stdout.sent ∧
      w.runner.result.stderr_output = w.stderr.sent ↔
    Machine.Along step Drained (.init q) acts := by
  have hc := Capture.reach h
  obtain ⟨hout, herr, hro, hre⟩ := hc.completed hdone
  rw [hro, hre, hc.out, hc.err, ← not_stuck_iff hout herr]
  refine ⟨fun hs => ?_, fun hd hs => (Emptied.reach h hd hs).2 hdone⟩
  by_contra hn
  obtain ⟨pre, b, post, s, rfl, hpre, hb⟩ := Machine.exists_of_not_along hn
  rw [Runs, Machine.run_append, hpre, Option.bind_some, Machine.run_cons] at h
  obtain ⟨t, ht, hpost⟩ := h
  rcases stuck_of_not_drained hb ht with hst | ⟨hpc, hst⟩
  · exact hs (hst.run ((Capture.reach hpre).keep (moves_step ht)) hpost)
  · have := runner_of_returned_run hpc hpost
    simp [this, hst] at hdone

/-- The submission writes one byte and exits, and the supervisor sends
`Terminated`. -/
def writesAndExits : List Act :=
  boot ++ [Act.submission (.writeStdout [65]), .submission (.finish 0)] ++
    List.replicate 5 (Act.childA .ok) ++
    [Act.supervisor (.ready false true), .supervisor .ok, .supervisor (.reap .zero)] ++
    List.replicate 3 (Act.supervisor .ok)

/-- The runner reads the byte in an iteration before the one that sees
`Terminated`. -/
theorem completed_output_iff_read_first :
    ∃ w : World, w.runner.result.status = .completed ∧ w.stdout.sent = [65] ∧
      w.runner.result.stdout_output = w.stdout.sent ∧
      w.runner.result.stderr_output = w.stderr.sent := by
  let acts : List Act := writesAndExits ++
    [Act.runner .ok, .runner (.events { stdout := true }), .runner (.count 1), .runner .ok,
      .runner (.events { control := true })] ++ List.replicate 4 (Act.runner .ok)
  obtain ⟨w, hw, hdone, hsent⟩ : ∃ w, Runs ⟨[], 1000, 0⟩ acts w ∧
      w.runner.result.status = .completed ∧ w.stdout.sent = [65] :=
    exists_run (by decide +kernel)
  exact ⟨w, hdone, hsent, (completed_output_iff hw hdone).2 (by decide +kernel)⟩

/-- The runner sees the byte and `Terminated` in one `poll`, and never reads the
byte. -/
theorem completed_output_lost :
    ¬ ∀ (q : Request) (acts : List Act) (w : World), Runs q acts w →
      w.runner.pc = .returned → w.runner.result.status = .completed →
      w.runner.result.stdout_output = w.stdout.sent ∧
        w.runner.result.stderr_output = w.stderr.sent := by
  intro h
  let acts : List Act := writesAndExits ++
    [Act.runner .ok, .runner (.events { stdout := true, stderr := true, control := true })] ++
    List.replicate 4 (Act.runner .ok)
  obtain ⟨w, hw, hpc, hdone, hne⟩ : ∃ w, Runs ⟨[], 1000, 0⟩ acts w ∧
      w.runner.pc = .returned ∧ w.runner.result.status = .completed ∧
      w.runner.result.stdout_output ≠ w.stdout.sent :=
    exists_run (by decide +kernel)
  exact hne (h _ _ w hw hpc hdone).1

end OnlineJudge
