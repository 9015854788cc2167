import OnlineJudge.Lib.Machine
import OnlineJudge.Children
import OnlineJudge.RunnerMoves

/-!
# The system

All four processes side by side: any of them may make its next call at any
time, a pending kill may take effect at any time, and the clock may advance at
any time. A run is a list of such actions.
-/

namespace OnlineJudge

inductive Process
  | supervisor | childA | childB
  deriving DecidableEq

inductive Act
  /-- The clock advances. -/
  | tick (ns : Nat)
  | runner (x : Answer)
  | supervisor (x : Answer)
  | childA (x : Answer)
  | childB (x : Answer)
  | submission (d : Deed)
  /-- A pending `SIGKILL` takes effect. -/
  | die (p : Process)
  deriving DecidableEq

def dieStep (w : World) : Process → Option World
  | .supervisor =>
    if w.killed.supervisor && w.sup.alive then
      some { w with sup := w.sup.go (.exited (signalStatus SIGKILL)) }
    else none
  | .childA =>
    if w.killed.childA && w.childA.alive then
      some { w with childA := .exited (signalStatus SIGKILL) }
    else none
  | .childB =>
    if w.killed.childB && w.childB.alive then
      some { w with childB := .exited (signalStatus SIGKILL) }
    else none

def step (w : World) : Act → Option World
  | .tick ns => some { w with clock := w.clock + ns }
  | .runner x => Runner.step w x
  | .supervisor x => Supervisor.step w x
  | .childA x => ChildA.step w x
  | .childB x => ChildB.step w x
  | .submission d => ChildB.deedStep w d
  | .die p => dieStep w p

/-- The outcomes of an action. -/
inductive Move (w : World) : Act → World → Prop
  | tick {ns} : Move w (.tick ns) { w with clock := w.clock + ns }
  | runner {x w'} (h : Runner.Move w x w') : Move w (.runner x) w'
  | supervisor {x w'} (h : Supervisor.Move w x w') : Move w (.supervisor x) w'
  | childA {x w'} (h : ChildA.Move w x w') : Move w (.childA x) w'
  | childB {x w'} (h : ChildB.Move w x w') : Move w (.childB x) w'
  | wroteStdout {bytes} (hpc : w.childB = .running) (hopen : w.runner.stdout_open = true) :
    Move w (.submission (.writeStdout bytes)) { w with stdout := w.stdout.put bytes }
  | wroteStderr {bytes} (hpc : w.childB = .running) (hopen : w.runner.stderr_open = true) :
    Move w (.submission (.writeStderr bytes)) { w with stderr := w.stderr.put bytes }
  | writeFailed {d} : Move w (.submission d) w
  | readStdin {n} (hpc : w.childB = .running) :
    Move w (.submission (.readStdin n)) { w with stdin := w.stdin.take n }
  | finished {wait_status} (hpc : w.childB = .running) :
    Move w (.submission (.finish wait_status)) { w with childB := .exited wait_status }
  | diedSupervisor (hk : w.killed.supervisor = true) (ha : w.sup.alive = true) :
    Move w (.die .supervisor) { w with sup := w.sup.go (.exited (signalStatus SIGKILL)) }
  | diedA (hk : w.killed.childA = true) (ha : w.childA.alive = true) :
    Move w (.die .childA) { w with childA := .exited (signalStatus SIGKILL) }
  | diedB (hk : w.killed.childB = true) (ha : w.childB.alive = true) :
    Move w (.die .childB) { w with childB := .exited (signalStatus SIGKILL) }

theorem moves_submission {w w' : World} {d : Deed} (h : ChildB.deedStep w d = some w') :
    Move w (.submission d) w' := by
  simp only [ChildB.deedStep] at h
  split at h
  · rename_i hpc
    cases d <;> simp only at h
    · split at h <;> cases h
      · rename_i hopen; exact .wroteStdout hpc hopen
      · exact .writeFailed
    · split at h <;> cases h
      · rename_i hopen; exact .wroteStderr hpc hopen
      · exact .writeFailed
    · cases h; exact .readStdin hpc
    · cases h; exact .finished hpc
  · cases h

theorem moves_step {w w' : World} {a : Act} (h : step w a = some w') : Move w a w' := by
  cases a with
  | tick ns => cases h; exact .tick
  | runner x => exact .runner (Runner.moves h)
  | supervisor x => exact .supervisor (Supervisor.moves h)
  | childA x => exact .childA (ChildA.moves h)
  | childB x => exact .childB (ChildB.moves h)
  | submission d => exact moves_submission h
  | die p =>
    cases p <;> simp only [step, dieStep] at h <;> split at h <;> cases h <;>
      rename_i hk <;> rw [Bool.and_eq_true] at hk
    · exact .diedSupervisor hk.1 hk.2
    · exact .diedA hk.1 hk.2
    · exact .diedB hk.1 hk.2

/-- Only the runner's own calls change it. -/
theorem Move.runner_cases {w w' : World} {a : Act} (h : Move w a w') :
    (∃ x, a = .runner x ∧ Runner.Move w x w') ∨ w'.runner = w.runner := by
  cases h with
  | runner hm => exact .inl ⟨_, rfl, hm⟩
  | supervisor hm => exact .inr hm.runner
  | childA hm => exact .inr hm.runner
  | childB hm => exact .inr hm.runner
  | _ => exact .inr rfl

/-- A run that returned has no more calls to make. -/
theorem runner_of_returned {w w' : World} {a : Act} (hpc : w.runner.pc = .returned)
    (h : step w a = some w') : w'.runner = w.runner := by
  cases a with
  | runner x => simp [step, Runner.step, hpc] at h
  | _ => cases moves_step h <;> grind -linarith

theorem runner_of_returned_run {w w' : World} {acts : List Act} (hpc : w.runner.pc = .returned)
    (h : Machine.run step w acts = some w') : w'.runner = w.runner :=
  Machine.run_keeps (I := fun s => s.runner = w.runner)
    (fun _ _ _ hs ht => (runner_of_returned (by rw [hs, hpc]) ht).trans hs) rfl h

/-- What `ProcessRunner::run` is called with, and when. -/
structure Request where
  input : List Byte
  wall_limit : Int
  start : Int
  deriving DecidableEq

def World.init (q : Request) : World :=
  { clock := q.start, runner := { input := q.input, wall_limit := q.wall_limit } }

/-- The run of `acts` for a request ends in `w`. -/
def Runs (q : Request) (acts : List Act) (w : World) : Prop :=
  Machine.run step (.init q) acts = some w

theorem exists_run {q : Request} {acts : List Act} {p : World → Prop} [DecidablePred p]
    (h : (Machine.run step (.init q) acts).any (fun w => decide (p w)) = true) :
    ∃ w, Runs q acts w ∧ p w := by
  cases hr : Machine.run step (.init q) acts with
  | none => simp [hr] at h
  | some w => exact ⟨w, hr, by simpa [hr] using h⟩

theorem exists_last_step {q : Request} {acts : List Act} {a : Act} {p r : World → Prop}
    [DecidablePred p] [DecidablePred r]
    (h : (Machine.run step (.init q) acts).any (fun w =>
      decide (p w) && (step w a).any fun w' => decide (r w')) = true) :
    ∃ w w', Runs q acts w ∧ p w ∧ step w a = some w' ∧ r w' := by
  obtain ⟨w, hw, hp⟩ := (Option.any_eq_true _ _).1 h
  rw [Bool.and_eq_true, decide_eq_true_eq] at hp
  obtain ⟨w', ht, hr⟩ := (Option.any_eq_true _ _).1 hp.2
  exact ⟨w, w', hw, hp.1, ht, of_decide_eq_true hr⟩

/-- `ProcessRunner::run` can return this result. -/
def CanReturn (result : ExecutionResult) : Prop :=
  ∃ q acts w, Runs q acts w ∧ w.runner.pc = .returned ∧ w.runner.result = result

/-- The kernel refused no call. What it does refuse by itself, such as a write
to a socket whose peer is closed, is not an answer of its own. -/
def Act.faultless : Act → Bool
  | .runner (.fail _) | .supervisor (.fail _) | .childA (.fail _) | .childB (.fail _) => false
  | _ => true

/-! ## A start without incident -/

/-- Runner and supervisor up to `Ready`: the runner is at the head of its loop,
the supervisor polls, and Child A is released. -/
def bootSupervisor : List Act :=
  List.replicate 6 (Act.runner .ok) ++ List.replicate 6 (Act.supervisor .ok) ++
    [Act.supervisor (.count 7)] ++ List.replicate 5 (Act.supervisor .ok) ++
    List.replicate 2 (Act.runner .ok)

/-- Then the children, up to the submission. -/
def boot : List Act :=
  bootSupervisor ++ List.replicate 13 (Act.childA .ok) ++ List.replicate 15 (Act.childB .ok)

example :
    (Machine.run step (.init ⟨[], 1000, 0⟩) boot).any (fun w =>
      w.runner.pc = .loop ∧ w.sup.pc = .poll ∧ w.childA = .waitB ∧ w.childB = .running) = true := by
  decide +kernel

/-- The same start on a host that lets nobody create the cgroup. -/
def bootDenied : List Act :=
  List.replicate 6 (Act.runner .ok) ++ [Act.supervisor (.fail EPERM)] ++
    List.replicate 5 (Act.supervisor .ok) ++ [Act.supervisor (.count 7)] ++
    List.replicate 3 (Act.supervisor .ok) ++ List.replicate 2 (Act.runner .ok)

/-- A submission that ends with this wait status, up to the return of `run`. -/
def completes (wait_status : Word32) : List Act :=
  boot ++ [Act.submission (.finish wait_status)] ++ List.replicate 5 (Act.childA .ok) ++
    [Act.supervisor (.ready false true), .supervisor .ok, .supervisor (.reap .zero)] ++
    List.replicate 3 (Act.supervisor .ok) ++
    [Act.runner .ok, .runner (.events { control := true })] ++ List.replicate 4 (Act.runner .ok)

end OnlineJudge
