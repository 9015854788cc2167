import OnlineJudge.World

/-!
# The supervisor

The supervisor branch of `ProcessRunner::run` (`runner/process_runner.cpp`) with
the methods of `Sandbox` it calls (`sandbox/sandbox.cpp`).
-/

namespace OnlineJudge
namespace Supervisor

/-! ## Between two calls -/

def go (s : Supervisor) (pc : SupervisorPc) : Supervisor := { s with pc }

def exit (s : Supervisor) (code : Nat) : Supervisor := s.go (.exited (exitStatus code))

/-- `cleanup_supervisor_failure(termination_already_attempted)`. -/
def fail (s : Supervisor) (termination_already_attempted : Bool) : Supervisor :=
  if termination_already_attempted then s.go .failureKill
  else if s.cgroup_path then s.go (.openKill .failure)
  else s.go .failureKill

/-- The rest of a loop iteration once the control socket was looked after. -/
def afterControl (s : Supervisor) : Supervisor :=
  if s.startup_status_open && s.status_ready then s.go .readStatus else s.go .waitNoHang

/-- `Sandbox::terminate` returned `ok`. -/
def terminateReturned (s : Supervisor) (ok : Bool) : TerminateCaller → Supervisor
  | .loop =>
    if ok then { s with termination_requested := true }.afterControl else s.fail true
  | .failure => s.go .failureKill

/-- `Sandbox::cleanupCgroup` returned `ok`. -/
def cleanupReturned (s : Supervisor) (ok : Bool) : CleanupCaller → Supervisor
  | .noProcess => s.exit EXIT_FAILURE
  | .payload failure =>
    if ok then s.go (.send .setupFailed (Message.setupFailed failure).writes)
    else s.exit EXIT_FAILURE
  | .finished =>
    if ok then
      s.go (.send .terminated (Message.terminated
        ⟨if s.has_forwarded_status then s.forwarded_child_status else s.status, s.usage⟩).writes)
    else s.exit EXIT_FAILURE

/-- `Sandbox::cleanupCgroup` tries five times, and not at all without a path. -/
def cleanupCgroup (s : Supervisor) (caller : CleanupCaller) : Supervisor :=
  if s.cgroup_path then s.go (.removeCgroup caller 5) else s.cleanupReturned true caller

/-- `send_message` returned `ok`. -/
def sendReturned (s : Supervisor) (ok : Bool) : SendCaller → Supervisor
  | .prepare | .setupFailed => s.exit EXIT_FAILURE
  | .ready => if ok then s.go .poll else s.fail s.termination_requested
  | .terminated => s.exit (if ok then 0 else EXIT_FAILURE)

def closeStatus (s : Supervisor) : Supervisor := { s with startup_status_open := false }

/-- `failSetup` with the control socket. -/
def failSetup (s : Supervisor) (stage : SandboxSetupStage) (e : Errno) : Supervisor :=
  s.go (.send .prepare (FailureReport.failSetup.writes stage e))

/-- The payload of the `Ready` message; its `execution_id` is not given a value. -/
def readyPayload (host_pid : Word32) : SandboxReadyPayload := ⟨host_pid, 1, 0⟩

/-- `read_status_pipe` returned in the loop. -/
def statusReturned (s : Supervisor) : StatusPipeReadResult → Supervisor
  | .waitStatus wait_status =>
    { s with forwarded_child_status := wait_status, has_forwarded_status := true }.go .waitNoHang
  | .payload failure => s.closeStatus.go (.waitFailed failure)
  | .eof => s.closeStatus.go .waitNoHang
  | .error => s.fail s.termination_requested

/-- The loop saw a control header. -/
def handleControl (s : Supervisor) (header : SandboxMessageHeader) : Supervisor :=
  if header.type = SandboxMessageType.terminate.code then
    if header.payload_size ≠ 0 then s.fail s.termination_requested
    else if s.termination_requested then s.afterControl
    else if s.cgroup_path then s.go (.openKill .loop)
    else s.terminateReturned true .loop
  else s.fail s.termination_requested

-- How the local functions act on a supervisor is routine for every invariant.
attribute [grind =] go exit fail afterControl terminateReturned cleanupReturned cleanupCgroup
  sendReturned closeStatus failSetup statusReturned

theorem handleControl_cases (s : Supervisor) (header : SandboxMessageHeader) :
    s.handleControl header = s.fail s.termination_requested ∨
    s.handleControl header = s.afterControl ∧ s.termination_requested = true ∨
    s.handleControl header = s.go (.openKill .loop) ∧ s.termination_requested = false ∧
      s.cgroup_path = true ∨
    s.handleControl header = s.terminateReturned true .loop ∧ s.termination_requested = false ∧
      s.cgroup_path = false := by
  unfold handleControl
  split
  · split
    · exact .inl rfl
    · split
      · rename_i ht; exact .inr (.inl ⟨rfl, ht⟩)
      · rename_i ht
        split
        · rename_i hp; exact .inr (.inr (.inl ⟨rfl, by simpa using ht, hp⟩))
        · rename_i hp; exact .inr (.inr (.inr ⟨rfl, by simpa using ht, by simpa using hp⟩))
  · exact .inl rfl

/-! ## Calls -/

/-- `Sandbox::setupCgroup`. -/
def mkdirCgroup (w : World) : Answer → Option World
  | .ok =>
    some { w with
      cgroup := { w.cgroup with present := true }
      sup := { w.sup with cgroup_path := true, pc := .mkdtemp } }
  | .fail e =>
    if e = EEXIST then
      some { w with sup := { w.sup with cgroup_path := false }.failSetup .cgroup e }
    else if permission e then
      some { w with sup := { w.sup with cgroup_path := false, pc := .mkdtemp } }
    else some { w with sup := { w.sup with cgroup_path := true }.failSetup .cgroup e }
  | _ => none

/-- `Sandbox::addProcessToCgroup` opens `cgroup.procs`. -/
def openProcs (w : World) : Answer → Option World
  | .ok => some { w with sup := w.sup.go (if w.cgroup.present then .writeProcs else .killChild) }
  | .fail e =>
    if permission e then some { w with sup := { w.sup with cgroup_path := false, pc := .release } }
    else some { w with sup := w.sup.go .killChild }
  | _ => none

def writeProcs (w : World) : Answer → Option World
  | .ok =>
    if w.cgroup.present && w.childA.alive then
      some { w with cgroup := { w.cgroup with hasA := true }, sup := w.sup.go .release }
    else some { w with sup := w.sup.go .killChild }
  | .fail e =>
    if permission e then some { w with sup := { w.sup with cgroup_path := false, pc := .release } }
    else some { w with sup := w.sup.go .killChild }
  | _ => none

/-- `Sandbox::terminate` opens `cgroup.kill`. -/
def openKill (w : World) (caller : TerminateCaller) : Answer → Option World
  | .ok =>
    if w.cgroup.present then some { w with sup := w.sup.go (.writeKill caller) }
    else some { w with sup := { w.sup with cgroup_path := false }.terminateReturned true caller }
  | .fail e =>
    if permission e || e = ENOENT then
      some { w with sup := { w.sup with cgroup_path := false }.terminateReturned true caller }
    else some { w with sup := w.sup.terminateReturned false caller }
  | _ => none

def writeKill (w : World) (caller : TerminateCaller) : Answer → Option World
  | .ok =>
    if w.cgroup.present then
      some { w.killCgroup with sup := w.sup.terminateReturned true caller }
    else some { w with sup := w.sup.terminateReturned false caller }
  | .fail e =>
    if permission e then
      some { w with sup := { w.sup with cgroup_path := false }.terminateReturned true caller }
    else some { w with sup := w.sup.terminateReturned false caller }
  | _ => none

/-- One `rmdir` of `Sandbox::cleanupCgroup`. It succeeds only on a cgroup
without live processes, and answers `ENOENT` only when the directory is gone. -/
def removeCgroup (w : World) (caller : CleanupCaller) (retries : Nat) : Answer → Option World
  | .ok =>
    if w.cgroup.present && w.populated then none
    else some { w with
      cgroup := { w.cgroup with present := false }
      sup := { w.sup with cgroup_path := false }.cleanupReturned true caller }
  | .fail e =>
    if e = ENOENT then none
    else if e = EBUSY then
      if retries ≤ 1 then some { w with sup := w.sup.cleanupReturned false caller }
      else some { w with sup := w.sup.go (.removeCgroup caller (retries - 1)) }
    else if permission e then
      some { w with sup := { w.sup with cgroup_path := false }.cleanupReturned true caller }
    else some { w with sup := w.sup.cleanupReturned false caller }
  | _ => none

/-- One `write` of `send_message`. -/
def send (w : World) (caller : SendCaller) (chunk : List Byte) (rest : List (List Byte)) :
    Answer → Option World
  | .ok =>
    if w.runner.control_open then
      some { w with
        toRunner := w.toRunner.put chunk
        sup := if rest = [] then w.sup.sendReturned true caller
          else w.sup.go (.send caller rest) }
    else some { w with sup := w.sup.sendReturned false caller }
  | .fail e => if e = EINTR then some w else some { w with sup := w.sup.sendReturned false caller }
  | _ => none

/-- `kill(SIGKILL)` on Child A, whose result is ignored. -/
def killA (w : World) (next : SupervisorPc) : Answer → Option World
  | .ok =>
    some { w with
      killed := { w.killed with childA := w.killed.childA || w.childA.alive }
      sup := w.sup.go next }
  | .fail _ => some { w with sup := w.sup.go next }
  | _ => none

def readControl (w : World) : Answer → Option World
  | .ok =>
    if headerSize ≤ w.toSup.pending.length then
      some { w with
        toSup := w.toSup.take headerSize
        sup := w.sup.handleControl (.ofBytes (w.toSup.pending.take headerSize)) }
    else if w.runner.control_open then none
    else some { w with sup := w.sup.fail w.sup.termination_requested }
  | .fail e =>
    if e = EINTR then some w
    else some { w with sup := w.sup.fail w.sup.termination_requested }
  | _ => none

def readStatus (w : World) : Answer → Option World
  | .ok =>
    (nextRecord w.statusPipe.pending (!w.statusWriter)).map fun rn =>
      { w with statusPipe := w.statusPipe.take rn.2, sup := w.sup.statusReturned rn.1 }
  | .fail e => if e = EINTR then some w else some { w with sup := w.sup.statusReturned .error }
  | _ => none

/-- `wait4(host_pid, WNOHANG)` at the end of an iteration. -/
def waitNoHang (w : World) : Answer → Option World
  | .reap usage =>
    match w.childA with
    | .exited raw_status =>
      -- nobody reaps Child A before the loop does
      if w.reaped.childA then some { w with sup := w.sup.fail w.sup.termination_requested }
      else some { w with
        reaped := { w.reaped with childA := true }
        sup := { w.sup.closeStatus with
          usage
          status := if w.sup.has_forwarded_status then w.sup.status else raw_status
          }.cleanupCgroup .finished }
    | _ => some { w with sup := w.sup.go .poll }
  | .fail e =>
    if e = EINTR then some w
    else some { w with sup := w.sup.fail w.sup.termination_requested }
  | _ => none

/-- A blocking wait for Child A: `yes` once it was reaped, `no` when the call
fails. -/
def waitA (w : World) (yes no : Supervisor) : Answer → Option World
  | .reap _ =>
    match w.childA with
    | .exited _ =>
      if w.reaped.childA then some { w with sup := no }
      else some { w with reaped := { w.reaped with childA := true }, sup := yes }
    | _ => none
  | .fail e => if e = EINTR then some w else some { w with sup := no }
  | _ => none

def step (w : World) (x : Answer) : Option World :=
  match w.sup.pc with
  | .unborn | .exited _ => none
  | .mkdirCgroup => mkdirCgroup w x
  | .mkdtemp =>
    match x with
    | .ok => some { w with sup := w.sup.go (.createPipes 0) }
    | .fail e => some { w with sup := w.sup.failSetup .filesystem e }
    | _ => none
  | .createPipes n =>
    match x with
    | .ok => some { w with sup := w.sup.go (if n < 3 then .createPipes (n + 1) else .fork) }
    | .fail _ => some { w with sup := w.sup.cleanupCgroup .noProcess }
    | _ => none
  | .fork =>
    match x with
    | .count pid =>
      if 0 < pid ∧ pid < 2 ^ 31 then
        some { w with
          childA := .awaitRelease
          sup := { w.sup with
            host_pid := BitVec.ofNat 32 pid
            pc := if w.sup.cgroup_path then .openProcs else .release } }
      else none
    | .fail _ => some { w with sup := w.sup.cleanupCgroup .noProcess }
    | _ => none
  | .openProcs => openProcs w x
  | .writeProcs => writeProcs w x
  | .release =>
    match x with
    | .ok =>
      if w.childA.alive then
        some { w with
          released := true
          sup := w.sup.go (.send .ready (Message.ready (readyPayload w.sup.host_pid)).writes) }
      else some { w with sup := w.sup.go .killChild }
    | .fail e => if e = EINTR then some w else some { w with sup := w.sup.go .killChild }
    | _ => none
  | .killChild => killA w .waitKilledChild x
  | .waitKilledChild =>
    waitA w (w.sup.cleanupCgroup .noProcess) (w.sup.cleanupCgroup .noProcess) x
  | .send _ [] => none
  | .send caller (chunk :: rest) => send w caller chunk rest x
  | .poll =>
    match x with
    | .ready control status =>
      -- poll reports nothing that is not so, and may miss what just became so
      if (control → w.toSup.pending ≠ [] ∨ w.runner.control_open = false) ∧
          (status → w.sup.startup_status_open = true ∧
            (w.statusPipe.pending ≠ [] ∨ w.statusWriter = false)) then
        some { w with
          sup := if control then { w.sup with status_ready := status, pc := .readControl }
            else { w.sup with status_ready := status }.afterControl }
      else none
    | .fail e =>
      if e = EINTR then some w
      else some { w with sup := w.sup.fail w.sup.termination_requested }
    | _ => none
  | .readControl => readControl w x
  | .openKill caller => openKill w caller x
  | .writeKill caller => writeKill w caller x
  | .readStatus => readStatus w x
  | .waitFailed failure =>
    waitA w (w.sup.cleanupCgroup (.payload failure)) (w.sup.fail w.sup.termination_requested) x
  | .waitNoHang => waitNoHang w x
  | .removeCgroup caller retries => removeCgroup w caller retries x
  | .failureKill => killA w .failureWait x
  | .failureWait => waitA w (w.sup.exit EXIT_FAILURE) (w.sup.exit EXIT_FAILURE) x

/-! ## Outcomes -/

/-- The blocking waits for Child A, with what follows a success and a
failure. -/
inductive WaitSite (s : Supervisor) : Supervisor → Supervisor → Prop
  | killed (hpc : s.pc = .waitKilledChild) :
    WaitSite s (s.cleanupCgroup .noProcess) (s.cleanupCgroup .noProcess)
  | failed {failure} (hpc : s.pc = .waitFailed failure) :
    WaitSite s (s.cleanupCgroup (.payload failure)) (s.fail s.termination_requested)
  | failure (hpc : s.pc = .failureWait) : WaitSite s (s.exit EXIT_FAILURE) (s.exit EXIT_FAILURE)

/-- The outcomes of a call of the supervisor, one constructor for each way it
can end. -/
inductive Move (w : World) : Answer → World → Prop
  | again : Move w (.fail EINTR) w
  | madeCgroup (hpc : w.sup.pc = .mkdirCgroup) :
    Move w .ok { w with
      cgroup := { w.cgroup with present := true }
      sup := { w.sup with cgroup_path := true, pc := .mkdtemp } }
  | cgroupDenied {e} (hpc : w.sup.pc = .mkdirCgroup) (he : permission e = true) :
    Move w (.fail e) { w with sup := { w.sup with cgroup_path := false, pc := .mkdtemp } }
  | cgroupFailed {e} (hpc : w.sup.pc = .mkdirCgroup) :
    Move w (.fail e)
      { w with sup := { w.sup with cgroup_path := decide (e ≠ EEXIST) }.failSetup .cgroup e }
  | madeRoot (hpc : w.sup.pc = .mkdtemp) :
    Move w .ok { w with sup := w.sup.go (.createPipes 0) }
  | rootFailed {e} (hpc : w.sup.pc = .mkdtemp) :
    Move w (.fail e) { w with sup := w.sup.failSetup .filesystem e }
  | madePipe {n} (hpc : w.sup.pc = .createPipes n) :
    Move w .ok { w with sup := w.sup.go (if n < 3 then .createPipes (n + 1) else .fork) }
  | noProcess {e} (hpc : (∃ n, w.sup.pc = .createPipes n) ∨ w.sup.pc = .fork) :
    Move w (.fail e) { w with sup := w.sup.cleanupCgroup .noProcess }
  | forked {pid} (hpc : w.sup.pc = .fork) (hpid : 0 < pid ∧ pid < 2 ^ 31) :
    Move w (.count pid) { w with
      childA := .awaitRelease
      sup := { w.sup with
        host_pid := BitVec.ofNat 32 pid
        pc := if w.sup.cgroup_path then .openProcs else .release } }
  | openedProcs (hpc : w.sup.pc = .openProcs) (hp : w.cgroup.present = true) :
    Move w .ok { w with sup := w.sup.go .writeProcs }
  | attached (hpc : w.sup.pc = .writeProcs) (hp : w.cgroup.present = true)
    (ha : w.childA.alive = true) :
    Move w .ok { w with cgroup := { w.cgroup with hasA := true }, sup := w.sup.go .release }
  | attachDenied {e} (hpc : w.sup.pc = .openProcs ∨ w.sup.pc = .writeProcs)
    (he : permission e = true) :
    Move w (.fail e) { w with sup := { w.sup with cgroup_path := false, pc := .release } }
  | released (hpc : w.sup.pc = .release) (ha : w.childA.alive = true) :
    Move w .ok { w with
      released := true
      sup := w.sup.go (.send .ready (Message.ready (readyPayload w.sup.host_pid)).writes) }
  /-- Attachment or release failed. -/
  | startFailed {x}
    (hx : (∃ e, x = .fail e) ∧ (w.sup.pc = .openProcs ∨ w.sup.pc = .writeProcs ∨
        w.sup.pc = .release) ∨
      x = .ok ∧ (w.sup.pc = .openProcs ∧ w.cgroup.present = false ∨
        w.sup.pc = .writeProcs ∧ (w.cgroup.present = false ∨ w.childA.alive = false) ∨
        w.sup.pc = .release ∧ w.childA.alive = false)) :
    Move w x { w with sup := w.sup.go .killChild }
  | killedA {next}
    (hpc : w.sup.pc = .killChild ∧ next = .waitKilledChild ∨
      w.sup.pc = .failureKill ∧ next = .failureWait) :
    Move w .ok { w with
      killed := { w.killed with childA := w.killed.childA || w.childA.alive }
      sup := w.sup.go next }
  | killAFailed {next e}
    (hpc : w.sup.pc = .killChild ∧ next = .waitKilledChild ∨
      w.sup.pc = .failureKill ∧ next = .failureWait) :
    Move w (.fail e) { w with sup := w.sup.go next }
  | sent {caller chunk rest} (hpc : w.sup.pc = .send caller (chunk :: rest))
    (hopen : w.runner.control_open = true) :
    Move w .ok { w with
      toRunner := w.toRunner.put chunk
      sup := if rest = [] then w.sup.sendReturned true caller
        else w.sup.go (.send caller rest) }
  | sendFailed {x caller chunk rest} (hpc : w.sup.pc = .send caller (chunk :: rest))
    (hx : (∃ e, x = .fail e) ∨ w.runner.control_open = false) :
    Move w x { w with sup := w.sup.sendReturned false caller }
  | polled {control status} (hpc : w.sup.pc = .poll)
    (hcontrol : control = true → w.toSup.pending ≠ [] ∨ w.runner.control_open = false)
    (hstatus : status = true → w.sup.startup_status_open = true ∧
      (w.statusPipe.pending ≠ [] ∨ w.statusWriter = false)) :
    Move w (.ready control status) { w with
      sup := if control then { w.sup with status_ready := status, pc := .readControl }
        else { w.sup with status_ready := status }.afterControl }
  | gotControl (hpc : w.sup.pc = .readControl) (hlen : headerSize ≤ w.toSup.pending.length) :
    Move w .ok { w with
      toSup := w.toSup.take headerSize
      sup := w.sup.handleControl (.ofBytes (w.toSup.pending.take headerSize)) }
  | openedKill {caller} (hpc : w.sup.pc = .openKill caller) (hp : w.cgroup.present = true) :
    Move w .ok { w with sup := w.sup.go (.writeKill caller) }
  | killWritten {caller} (hpc : w.sup.pc = .writeKill caller) (hp : w.cgroup.present = true) :
    Move w .ok { w.killCgroup with sup := w.sup.terminateReturned true caller }
  /-- `terminate` forgets the cgroup and returns true. -/
  | killDenied {x caller}
    (hx : w.sup.pc = .openKill caller ∧ (x = .ok ∧ w.cgroup.present = false ∨ x = .fail ENOENT) ∨
      (w.sup.pc = .openKill caller ∨ w.sup.pc = .writeKill caller) ∧
        ∃ e, x = .fail e ∧ permission e = true) :
    Move w x
      { w with sup := { w.sup with cgroup_path := false }.terminateReturned true caller }
  | killFailed {x caller}
    (hx : (∃ e, x = .fail e) ∧ (w.sup.pc = .openKill caller ∨ w.sup.pc = .writeKill caller) ∨
      x = .ok ∧ w.sup.pc = .writeKill caller ∧ w.cgroup.present = false) :
    Move w x { w with sup := w.sup.terminateReturned false caller }
  | gotStatus {r n} (hpc : w.sup.pc = .readStatus)
    (hr : nextRecord w.statusPipe.pending (!w.statusWriter) = some (r, n)) :
    Move w .ok { w with statusPipe := w.statusPipe.take n, sup := w.sup.statusReturned r }
  | statusFailed {e} (hpc : w.sup.pc = .readStatus) :
    Move w (.fail e) { w with sup := w.sup.statusReturned .error }
  | reapedA {usage raw_status} (hpc : w.sup.pc = .waitNoHang) (ha : w.childA = .exited raw_status)
    (hr : w.reaped.childA = false) :
    Move w (.reap usage) { w with
      reaped := { w.reaped with childA := true }
      sup := { w.sup.closeStatus with
        usage
        status := if w.sup.has_forwarded_status then w.sup.status else raw_status
        }.cleanupCgroup .finished }
  | stillRunning {usage} (hpc : w.sup.pc = .waitNoHang) (ha : ∀ s, w.childA ≠ .exited s) :
    Move w (.reap usage) { w with sup := w.sup.go .poll }
  /-- A call of the loop failed. -/
  | loopFailed {x}
    (hx : (∃ e, x = .fail e) ∧ (w.sup.pc = .poll ∨ w.sup.pc = .readControl ∨
        w.sup.pc = .waitNoHang) ∨
      w.sup.pc = .readControl ∧ x = .ok ∧ w.toSup.pending.length < headerSize ∧
        w.runner.control_open = false ∨
      w.sup.pc = .waitNoHang ∧ w.reaped.childA = true) :
    Move w x { w with sup := w.sup.fail w.sup.termination_requested }
  | waitedA {yes no usage raw_status} (site : WaitSite w.sup yes no)
    (ha : w.childA = .exited raw_status) (hr : w.reaped.childA = false) :
    Move w (.reap usage) { w with reaped := { w.reaped with childA := true }, sup := yes }
  | waitAFailed {x yes no} (site : WaitSite w.sup yes no)
    (hx : (∃ e, x = .fail e) ∨ w.reaped.childA = true) :
    Move w x { w with sup := no }
  | removed {caller retries} (hpc : w.sup.pc = .removeCgroup caller retries)
    (hp : (w.cgroup.present && w.populated) = false) :
    Move w .ok { w with
      cgroup := { w.cgroup with present := false }
      sup := { w.sup with cgroup_path := false }.cleanupReturned true caller }
  | removeBusy {caller retries} (hpc : w.sup.pc = .removeCgroup caller retries) :
    Move w (.fail EBUSY) { w with sup := w.sup.go (.removeCgroup caller (retries - 1)) }
  | removeDenied {caller retries e} (hpc : w.sup.pc = .removeCgroup caller retries)
    (he : permission e = true) :
    Move w (.fail e)
      { w with sup := { w.sup with cgroup_path := false }.cleanupReturned true caller }
  | removeFailed {caller retries e} (hpc : w.sup.pc = .removeCgroup caller retries) :
    Move w (.fail e) { w with sup := w.sup.cleanupReturned false caller }

theorem moves_waitA {w w' : World} {x : Answer} {yes no : Supervisor}
    (site : WaitSite w.sup yes no) (h : waitA w yes no x = some w') : Move w x w' := by
  cases x <;> simp only [waitA, reduceCtorEq] at h
  · split at h
    · rename_i he
      cases h; subst he; exact .again
    · cases h; exact .waitAFailed site (.inl ⟨_, rfl⟩)
  · split at h
    · rename_i ha
      split at h <;> cases h
      · rename_i hr; exact .waitAFailed site (.inr hr)
      · rename_i hr; exact .waitedA site ha (by simpa using hr)
    · cases h

theorem moves_killA {w w' : World} {x : Answer} {next : SupervisorPc}
    (hpc : w.sup.pc = .killChild ∧ next = .waitKilledChild ∨
      w.sup.pc = .failureKill ∧ next = .failureWait)
    (h : killA w next x = some w') : Move w x w' := by
  cases x <;> simp only [killA, reduceCtorEq] at h <;> cases h
  · exact .killedA hpc
  · exact .killAFailed hpc

theorem moves {w w' : World} {x : Answer} (h : step w x = some w') : Move w x w' := by
  cases hpc : w.sup.pc with
  | unborn | exited => simp [step, hpc] at h
  | mkdirCgroup =>
    simp only [step, hpc] at h
    cases x <;> simp only [mkdirCgroup, reduceCtorEq] at h
    · cases h; exact .madeCgroup hpc
    · rename_i e
      split at h
      · rename_i he
        cases h; simpa [he] using Move.cgroupFailed (e := e) hpc
      · rename_i he
        split at h <;> cases h
        · rename_i hperm; exact .cgroupDenied hpc hperm
        · simpa [he] using Move.cgroupFailed (e := e) hpc
  | mkdtemp =>
    cases x <;> simp only [step, hpc, reduceCtorEq] at h <;> cases h
    · exact .madeRoot hpc
    · exact .rootFailed hpc
  | createPipes n =>
    cases x <;> simp only [step, hpc, reduceCtorEq] at h <;> cases h
    · exact .madePipe hpc
    · exact .noProcess (.inl ⟨n, hpc⟩)
  | fork =>
    cases x <;> simp only [step, hpc, reduceCtorEq] at h
    · cases h; exact .noProcess (.inr hpc)
    · split at h <;> cases h
      rename_i hpid
      exact .forked hpc hpid
  | openProcs =>
    simp only [step, hpc] at h
    cases x <;> simp only [openProcs, reduceCtorEq] at h
    · cases h
      split
      · rename_i hp; exact .openedProcs hpc hp
      · rename_i hp; exact .startFailed (.inr ⟨rfl, .inl ⟨hpc, by simpa using hp⟩⟩)
    · split at h <;> cases h
      · rename_i he; exact .attachDenied (.inl hpc) he
      · exact .startFailed (.inl ⟨⟨_, rfl⟩, .inl hpc⟩)
  | writeProcs =>
    simp only [step, hpc] at h
    cases x <;> simp only [writeProcs, reduceCtorEq] at h
    · split at h <;> cases h
      · rename_i hp
        rw [Bool.and_eq_true] at hp
        exact .attached hpc hp.1 hp.2
      · rename_i hp
        exact .startFailed (.inr ⟨rfl, .inr (.inl
          ⟨hpc, by simpa [Classical.or_iff_not_imp_left] using hp⟩)⟩)
    · split at h <;> cases h
      · rename_i he; exact .attachDenied (.inr hpc) he
      · exact .startFailed (.inl ⟨⟨_, rfl⟩, .inr (.inl hpc)⟩)
  | release =>
    cases x <;> simp only [step, hpc, reduceCtorEq] at h
    · split at h <;> cases h
      · rename_i ha; exact .released hpc ha
      · rename_i ha; exact .startFailed (.inr ⟨rfl, .inr (.inr ⟨hpc, by simpa using ha⟩)⟩)
    · split at h
      · rename_i he
        cases h; subst he; exact .again
      · cases h; exact .startFailed (.inl ⟨⟨_, rfl⟩, .inr (.inr hpc)⟩)
  | killChild =>
    simp only [step, hpc] at h
    exact moves_killA (.inl ⟨hpc, rfl⟩) h
  | failureKill =>
    simp only [step, hpc] at h
    exact moves_killA (.inr ⟨hpc, rfl⟩) h
  | waitKilledChild =>
    simp only [step, hpc] at h
    exact moves_waitA (.killed hpc) h
  | waitFailed failure =>
    simp only [step, hpc] at h
    exact moves_waitA (.failed hpc) h
  | failureWait =>
    simp only [step, hpc] at h
    exact moves_waitA (.failure hpc) h
  | send caller writes =>
    cases writes with
    | nil => simp [step, hpc] at h
    | cons chunk rest =>
      simp only [step, hpc] at h
      cases x <;> simp only [send, reduceCtorEq] at h
      · split at h <;> cases h
        · rename_i hopen; exact .sent hpc hopen
        · rename_i hopen; exact .sendFailed hpc (.inr (by simpa using hopen))
      · split at h
        · rename_i he
          cases h; subst he; exact .again
        · cases h; exact .sendFailed hpc (.inl ⟨_, rfl⟩)
  | poll =>
    cases x <;> simp only [step, hpc, reduceCtorEq] at h
    · split at h
      · rename_i he
        cases h; subst he; exact .again
      · cases h; exact .loopFailed (.inl ⟨⟨_, rfl⟩, .inl hpc⟩)
    · split at h <;> cases h
      rename_i hready
      exact .polled hpc hready.1 hready.2
  | readControl =>
    simp only [step, hpc] at h
    cases x <;> simp only [readControl, reduceCtorEq] at h
    · split at h
      · rename_i hlen
        cases h; exact .gotControl hpc hlen
      · rename_i hlen
        split at h <;> cases h
        rename_i hopen
        exact .loopFailed (.inr (.inl ⟨hpc, rfl, by omega, by simpa using hopen⟩))
    · split at h
      · rename_i he
        cases h; subst he; exact .again
      · cases h; exact .loopFailed (.inl ⟨⟨_, rfl⟩, .inr (.inl hpc)⟩)
  | openKill caller =>
    simp only [step, hpc] at h
    cases x <;> simp only [openKill, reduceCtorEq] at h
    · split at h <;> cases h
      · rename_i hp; exact .openedKill hpc hp
      · rename_i hp; exact .killDenied (.inl ⟨hpc, .inl ⟨rfl, by simpa using hp⟩⟩)
    · split at h <;> cases h
      · rename_i he
        rw [Bool.or_eq_true, decide_eq_true_eq] at he
        rcases he with he | rfl
        · exact .killDenied (.inr ⟨.inl hpc, _, rfl, he⟩)
        · exact .killDenied (.inl ⟨hpc, .inr rfl⟩)
      · exact .killFailed (.inl ⟨⟨_, rfl⟩, .inl hpc⟩)
  | writeKill caller =>
    simp only [step, hpc] at h
    cases x <;> simp only [writeKill, reduceCtorEq] at h
    · split at h <;> cases h
      · rename_i hp; exact .killWritten hpc hp
      · rename_i hp; exact .killFailed (.inr ⟨rfl, hpc, by simpa using hp⟩)
    · split at h <;> cases h
      · rename_i he; exact .killDenied (.inr ⟨.inr hpc, _, rfl, he⟩)
      · exact .killFailed (.inl ⟨⟨_, rfl⟩, .inr hpc⟩)
  | readStatus =>
    simp only [step, hpc] at h
    cases x <;> simp only [readStatus, reduceCtorEq] at h
    · obtain ⟨⟨r, n⟩, hr, rfl⟩ := Option.map_eq_some_iff.1 h
      exact .gotStatus hpc hr
    · split at h
      · rename_i he
        cases h; subst he; exact .again
      · cases h; exact .statusFailed hpc
  | waitNoHang =>
    simp only [step, hpc] at h
    cases x <;> simp only [waitNoHang, reduceCtorEq] at h
    · split at h
      · rename_i he
        cases h; subst he; exact .again
      · cases h; exact .loopFailed (.inl ⟨⟨_, rfl⟩, .inr (.inr hpc)⟩)
    · split at h
      · rename_i ha
        split at h <;> cases h
        · rename_i hr; exact .loopFailed (.inr (.inr ⟨hpc, hr⟩))
        · rename_i hr; exact .reapedA hpc ha (by simpa using hr)
      · rename_i ha
        cases h; exact .stillRunning hpc ha
  | removeCgroup caller retries =>
    simp only [step, hpc] at h
    cases x <;> simp only [removeCgroup, reduceCtorEq] at h
    · split at h <;> cases h
      rename_i hp
      exact .removed hpc (by simpa using hp)
    · split at h
      · cases h
      · split at h
        · rename_i he
          subst he
          split at h <;> cases h
          · exact .removeFailed hpc
          · exact .removeBusy hpc
        · split at h <;> cases h
          · rename_i he; exact .removeDenied hpc he
          · exact .removeFailed hpc

section
variable {w w' : World} {x : Answer}

@[grind →] theorem Move.runner (h : Move w x w') : w'.runner = w.runner := by cases h <;> rfl
@[grind →] theorem Move.childB (h : Move w x w') : w'.childB = w.childB := by cases h <;> rfl
@[grind →] theorem Move.stdin (h : Move w x w') : w'.stdin = w.stdin := by cases h <;> rfl
@[grind →] theorem Move.stdout (h : Move w x w') : w'.stdout = w.stdout := by cases h <;> rfl
@[grind →] theorem Move.stderr (h : Move w x w') : w'.stderr = w.stderr := by cases h <;> rfl

end

end Supervisor
end OnlineJudge
