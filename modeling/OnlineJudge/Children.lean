import OnlineJudge.World

/-!
# Child A and Child B

The child half of `Sandbox::createExecutionProcess`, `finalizeExecutionEnvironment`
and `execute` (`sandbox/sandbox.cpp`), and the submission itself.
-/

namespace OnlineJudge

/-- The next setup call, and the submission itself after the last one. -/
def ChildB.next : List SetupCall → ChildB
  | [] => .running
  | call :: rest => .setup call rest

theorem ChildB.next_cases (calls : List SetupCall) :
    ChildB.next calls = .running ∨ ∃ call rest, ChildB.next calls = .setup call rest := by
  cases calls with
  | nil => exact .inl rfl
  | cons call rest => exact .inr ⟨call, rest, rfl⟩

namespace ChildA

/-- The next setup call, and the fork of Child B after the last one. -/
def next : List SetupCall → ChildA
  | [] => .fork
  | call :: rest => .setup call rest

theorem next_cases (calls : List SetupCall) :
    next calls = .fork ∨ ∃ call rest, next calls = .setup call rest := by
  cases calls with
  | nil => exact .inl rfl
  | cons call rest => exact .inr ⟨call, rest, rfl⟩

/-- Child A ends the way Child B did. -/
def mirror (b_status : Word32) : Word32 :=
  if WIFEXITED b_status then exitStatus (WEXITSTATUS b_status)
  else if WIFSIGNALED b_status then signalStatus (WTERMSIG b_status)
  else exitStatus EXIT_FAILURE

/-- One `write` of `failSetup`; the process exits after the last one, or when
one fails. -/
def reportStep (w : World) (onControl : Bool) (chunk : List Byte) (rest : List (List Byte)) :
    Answer → Option World
  | .ok =>
    let w' := { w with childA :=
      if rest = [] then .exited (exitStatus EXIT_FAILURE) else .report onControl rest }
    if onControl then
      if w.runner.control_open then some { w' with toRunner := w.toRunner.put chunk }
      else some { w with childA := .exited (exitStatus EXIT_FAILURE) }
    else if w.statusReader then some { w' with statusPipe := w.statusPipe.put chunk }
    else some { w with childA := .exited (exitStatus EXIT_FAILURE) }
  | .fail e =>
    if e = EINTR then some w else some { w with childA := .exited (exitStatus EXIT_FAILURE) }
  | _ => none

/-- The `waitpid` on Child B; nothing but a signal makes it fail. -/
def waitStep (w : World) : Answer → Option World
  | .ok =>
    match w.childB with
    | .exited b_status =>
      some { w with
        childA := .forward b_status [[tag], b_status.bytes]
        reaped := { w.reaped with childB := true } }
    | _ => none
  | _ => none

/-- One `write` of `write_wait_status`. -/
def forwardStep (w : World) (b_status : Word32) (chunk : List Byte) (rest : List (List Byte)) :
    Answer → Option World
  | .ok =>
    if w.statusReader then
      some { w with
        statusPipe := w.statusPipe.put chunk
        childA := if rest = [] then .closeStatus b_status else .forward b_status rest }
    else some { w with childA := .closeStatus b_status }
  | .fail e => if e = EINTR then some w else some { w with childA := .closeStatus b_status }
  | _ => none

def step (w : World) (x : Answer) : Option World :=
  match w.childA with
  | .unborn | .exited _ => none
  | .awaitRelease =>
    match x with
    | .ok =>
      if w.released then some { w with childA := next childASetup }
      else if w.sup.holdsSync then none
      else some { w with childA := .exited (exitStatus EXIT_FAILURE) }
    | .fail e =>
      if e = EINTR then some w else some { w with childA := .exited (exitStatus EXIT_FAILURE) }
    | _ => none
  | .setup call rest =>
    match x with
    | .ok => some { w with childA := next rest }
    | .fail e =>
      some { w with childA := .report call.onControl (call.report.writes call.stage e) }
    | _ => none
  | .report _ [] => none
  | .report onControl (chunk :: rest) => reportStep w onControl chunk rest x
  | .fork =>
    match x with
    | .ok =>
      -- a process with a pending SIGKILL does not get to fork
      if w.killed.childA then none
      else some { w with
        childA := .waitB
        childB := .next childBSetup
        cgroup := { w.cgroup with hasB := w.cgroup.hasA } }
    | .fail e =>
      some { w with childA := .report false (FailureReport.failSetup.writes .namespace e) }
    | _ => none
  | .waitB => waitStep w x
  | .forward _ [] => none
  | .forward b_status (chunk :: rest) => forwardStep w b_status chunk rest x
  | .closeStatus b_status => if x = .ok then some { w with childA := .leave b_status } else none
  | .leave b_status => if x = .ok then some { w with childA := .exited (mirror b_status) } else none

/-- The outcomes of a call of Child A, one constructor for each way it can
end. -/
inductive Move (w : World) : Answer → World → Prop
  | again : Move w (.fail EINTR) w
  | released (hpc : w.childA = .awaitRelease) (hr : w.released = true) :
    Move w .ok { w with childA := next childASetup }
  /-- End of file on the sync pipe, or a failed read. -/
  | abandoned {x} (hpc : w.childA = .awaitRelease)
    (hr : w.released = false ∧ w.sup.holdsSync = false ∨ ∃ e, x = .fail e) :
    Move w x { w with childA := .exited (exitStatus EXIT_FAILURE) }
  | setupDone {call rest} (hpc : w.childA = .setup call rest) :
    Move w .ok { w with childA := next rest }
  | setupFailed {call rest e} (hpc : w.childA = .setup call rest) :
    Move w (.fail e)
      { w with childA := .report call.onControl (call.report.writes call.stage e) }
  | toldControl {chunk rest} (hpc : w.childA = .report true (chunk :: rest))
    (hopen : w.runner.control_open = true) :
    Move w .ok { w with
      toRunner := w.toRunner.put chunk
      childA := if rest = [] then .exited (exitStatus EXIT_FAILURE) else .report true rest }
  | toldStatus {chunk rest} (hpc : w.childA = .report false (chunk :: rest))
    (hopen : w.statusReader = true) :
    Move w .ok { w with
      statusPipe := w.statusPipe.put chunk
      childA := if rest = [] then .exited (exitStatus EXIT_FAILURE) else .report false rest }
  | reportLost {x onControl chunk rest} (hpc : w.childA = .report onControl (chunk :: rest))
    (hx : (∃ e, x = .fail e) ∨ onControl = true ∧ w.runner.control_open = false ∨
      onControl = false ∧ w.statusReader = false) :
    Move w x { w with childA := .exited (exitStatus EXIT_FAILURE) }
  | forked (hpc : w.childA = .fork) (hk : w.killed.childA = false) :
    Move w .ok { w with
      childA := .waitB
      childB := .next childBSetup
      cgroup := { w.cgroup with hasB := w.cgroup.hasA } }
  | forkFailed {e} (hpc : w.childA = .fork) :
    Move w (.fail e)
      { w with childA := .report false (FailureReport.failSetup.writes .namespace e) }
  | waited {b_status} (hpc : w.childA = .waitB) (hb : w.childB = .exited b_status) :
    Move w .ok { w with
      childA := .forward b_status [[tag], b_status.bytes]
      reaped := { w.reaped with childB := true } }
  | forwarded {b_status chunk rest} (hpc : w.childA = .forward b_status (chunk :: rest))
    (hopen : w.statusReader = true) :
    Move w .ok { w with
      statusPipe := w.statusPipe.put chunk
      childA := if rest = [] then .closeStatus b_status else .forward b_status rest }
  | forwardLost {x b_status chunk rest} (hpc : w.childA = .forward b_status (chunk :: rest))
    (hx : (∃ e, x = .fail e) ∨ w.statusReader = false) :
    Move w x { w with childA := .closeStatus b_status }
  | closedStatus {b_status} (hpc : w.childA = .closeStatus b_status) :
    Move w .ok { w with childA := .leave b_status }
  | left {b_status} (hpc : w.childA = .leave b_status) :
    Move w .ok { w with childA := .exited (mirror b_status) }

theorem moves {w w' : World} {x : Answer} (h : step w x = some w') : Move w x w' := by
  cases hpc : w.childA with
  | unborn | exited => simp [step, hpc] at h
  | awaitRelease =>
    cases x <;> simp only [step, hpc, reduceCtorEq] at h
    · split at h
      · rename_i hr
        cases h; exact .released hpc hr
      · rename_i hr
        split at h
        · cases h
        · rename_i hsync
          cases h; exact .abandoned hpc (.inl ⟨by simpa using hr, by simpa using hsync⟩)
    · split at h
      · rename_i e he
        cases h; subst he; exact .again
      · cases h; exact .abandoned hpc (.inr ⟨_, rfl⟩)
  | setup call rest =>
    cases x <;> simp only [step, hpc, reduceCtorEq] at h <;> cases h
    · exact .setupDone hpc
    · exact .setupFailed hpc
  | report onControl writes =>
    cases writes with
    | nil => simp [step, hpc] at h
    | cons chunk rest =>
      simp only [step, hpc] at h
      cases x <;> simp only [reportStep, reduceCtorEq] at h
      · cases onControl <;> simp only [Bool.false_eq_true, if_false, if_true] at h <;>
          split at h <;> cases h
        · rename_i hopen; exact .toldStatus hpc hopen
        · rename_i hopen; exact .reportLost hpc (.inr (.inr ⟨rfl, by simpa using hopen⟩))
        · rename_i hopen; exact .toldControl hpc hopen
        · rename_i hopen; exact .reportLost hpc (.inr (.inl ⟨rfl, by simpa using hopen⟩))
      · split at h
        · rename_i e he
          cases h; subst he; exact .again
        · cases h; exact .reportLost hpc (.inl ⟨_, rfl⟩)
  | fork =>
    cases x <;> simp only [step, hpc, reduceCtorEq] at h
    · split at h
      · cases h
      · rename_i hk
        cases h; exact .forked hpc (by simpa using hk)
    · cases h; exact .forkFailed hpc
  | waitB =>
    cases x <;> simp only [step, hpc, waitStep, reduceCtorEq] at h
    split at h <;> cases h
    rename_i hb
    exact .waited hpc hb
  | forward b_status writes =>
    cases writes with
    | nil => simp [step, hpc] at h
    | cons chunk rest =>
      simp only [step, hpc] at h
      cases x <;> simp only [forwardStep, reduceCtorEq] at h
      · split at h <;> cases h
        · rename_i hopen; exact .forwarded hpc hopen
        · rename_i hopen; exact .forwardLost hpc (.inr (by simpa using hopen))
      · split at h
        · rename_i e he
          cases h; subst he; exact .again
        · cases h; exact .forwardLost hpc (.inl ⟨_, rfl⟩)
  | closeStatus b_status =>
    simp only [step, hpc] at h
    split at h <;> cases h
    rename_i hx
    subst hx; exact .closedStatus hpc
  | leave b_status =>
    simp only [step, hpc] at h
    split at h <;> cases h
    rename_i hx
    subst hx; exact .left hpc

section
variable {w w' : World} {x : Answer}

@[grind →] theorem Move.runner (h : Move w x w') : w'.runner = w.runner := by cases h <;> rfl
@[grind →] theorem Move.sup (h : Move w x w') : w'.sup = w.sup := by cases h <;> rfl
@[grind →] theorem Move.stdin (h : Move w x w') : w'.stdin = w.stdin := by cases h <;> rfl
@[grind →] theorem Move.stdout (h : Move w x w') : w'.stdout = w.stdout := by cases h <;> rfl
@[grind →] theorem Move.stderr (h : Move w x w') : w'.stderr = w.stderr := by cases h <;> rfl
@[grind →] theorem Move.toSup (h : Move w x w') : w'.toSup = w.toSup := by cases h <;> rfl
@[grind →] theorem Move.released_eq (h : Move w x w') : w'.released = w.released := by
  cases h <;> rfl
@[grind →] theorem Move.killed (h : Move w x w') : w'.killed = w.killed := by cases h <;> rfl

end

end ChildA

/-! ## The submission -/

/-- What the submission can do. -/
inductive Deed
  | writeStdout (bytes : List Byte)
  | writeStderr (bytes : List Byte)
  | readStdin (n : Nat)
  | finish (wait_status : Word32)
  deriving DecidableEq

namespace ChildB

/-- One `write` of a failure report; the process exits after the last one, or
when one fails. -/
def reportStep (w : World) (chunk : List Byte) (rest : List (List Byte)) :
    Answer → Option World
  | .ok =>
    if w.statusReader then
      some { w with
        statusPipe := w.statusPipe.put chunk
        childB := if rest = [] then .exited (exitStatus EXIT_FAILURE) else .report rest }
    else some { w with childB := .exited (exitStatus EXIT_FAILURE) }
  | .fail e =>
    if e = EINTR then some w else some { w with childB := .exited (exitStatus EXIT_FAILURE) }
  | _ => none

def step (w : World) (x : Answer) : Option World :=
  match w.childB with
  | .unborn | .running | .exited _ => none
  | .setup call rest =>
    match x with
    | .ok => some { w with childB := next rest }
    | .fail e => some { w with childB := .report (call.report.writes call.stage e) }
    | _ => none
  | .report [] => none
  | .report (chunk :: rest) => reportStep w chunk rest x

/-- The outcomes of a call of Child B. -/
inductive Move (w : World) : Answer → World → Prop
  | again : Move w (.fail EINTR) w
  | setupDone {call rest} (hpc : w.childB = .setup call rest) :
    Move w .ok { w with childB := next rest }
  | setupFailed {call rest e} (hpc : w.childB = .setup call rest) :
    Move w (.fail e) { w with childB := .report (call.report.writes call.stage e) }
  | told {chunk rest} (hpc : w.childB = .report (chunk :: rest)) (hopen : w.statusReader = true) :
    Move w .ok { w with
      statusPipe := w.statusPipe.put chunk
      childB := if rest = [] then .exited (exitStatus EXIT_FAILURE) else .report rest }
  | reportLost {x chunk rest} (hpc : w.childB = .report (chunk :: rest))
    (hx : (∃ e, x = .fail e) ∨ w.statusReader = false) :
    Move w x { w with childB := .exited (exitStatus EXIT_FAILURE) }

theorem moves {w w' : World} {x : Answer} (h : step w x = some w') : Move w x w' := by
  cases hpc : w.childB with
  | unborn | running | exited => simp [step, hpc] at h
  | setup call rest =>
    cases x <;> simp only [step, hpc, reduceCtorEq] at h <;> cases h
    · exact .setupDone hpc
    · exact .setupFailed hpc
  | report writes =>
    cases writes with
    | nil => simp [step, hpc] at h
    | cons chunk rest =>
      simp only [step, hpc] at h
      cases x <;> simp only [reportStep, reduceCtorEq] at h
      · split at h <;> cases h
        · rename_i hopen; exact .told hpc hopen
        · rename_i hopen; exact .reportLost hpc (.inr (by simpa using hopen))
      · split at h
        · rename_i e he
          cases h; subst he; exact .again
        · cases h; exact .reportLost hpc (.inl ⟨_, rfl⟩)

section
variable {w w' : World} {x : Answer}

@[grind →] theorem Move.runner (h : Move w x w') : w'.runner = w.runner := by cases h <;> rfl
@[grind →] theorem Move.sup (h : Move w x w') : w'.sup = w.sup := by cases h <;> rfl
@[grind →] theorem Move.childA (h : Move w x w') : w'.childA = w.childA := by cases h <;> rfl
@[grind →] theorem Move.toRunner (h : Move w x w') : w'.toRunner = w.toRunner := by cases h <;> rfl
@[grind →] theorem Move.toSup (h : Move w x w') : w'.toSup = w.toSup := by cases h <;> rfl
@[grind →] theorem Move.released (h : Move w x w') : w'.released = w.released := by
  cases h <;> rfl
@[grind →] theorem Move.stdin (h : Move w x w') : w'.stdin = w.stdin := by cases h <;> rfl
@[grind →] theorem Move.stdout (h : Move w x w') : w'.stdout = w.stdout := by cases h <;> rfl
@[grind →] theorem Move.stderr (h : Move w x w') : w'.stderr = w.stderr := by cases h <;> rfl
@[grind →] theorem Move.cgroup (h : Move w x w') : w'.cgroup = w.cgroup := by cases h <;> rfl
@[grind →] theorem Move.killed (h : Move w x w') : w'.killed = w.killed := by cases h <;> rfl
@[grind →] theorem Move.reaped (h : Move w x w') : w'.reaped = w.reaped := by cases h <;> rfl

end

/-- One deed of the submission. A write to a stream whose reader is gone fails
and leaves nothing behind. -/
def deedStep (w : World) (d : Deed) : Option World :=
  if w.childB = .running then
    match d with
    | .writeStdout bytes =>
      if w.runner.stdout_open then some { w with stdout := w.stdout.put bytes } else some w
    | .writeStderr bytes =>
      if w.runner.stderr_open then some { w with stderr := w.stderr.put bytes } else some w
    | .readStdin n => some { w with stdin := w.stdin.take n }
    | .finish wait_status => some { w with childB := .exited wait_status }
  else none

end ChildB

end OnlineJudge
