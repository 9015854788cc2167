import OnlineJudge.Supervisor

/-!
# The runner

The runner branch of `ProcessRunner::run` (`runner/process_runner.cpp`): the
setup up to the fork, the wait for `Ready`, the poll loop, and the two cleanup
lambdas.
-/

namespace OnlineJudge

/-- `IO_BUFFER_SIZE`. -/
def ioBufferSize : Nat := 4096

/-- Conversion of an integer to an `n`-bit two's complement type. -/
def wrap (n : Nat) (v : Int) : Int := v.bmod (2 ^ n)

/-- Conversion to `size_t`. -/
def sizeT (v : Int) : Nat := (v % 2 ^ 64).toNat

/-- `start_time + config.limit.wall_limit`, in the 64-bit count of nanoseconds
that `steady_clock` uses. -/
def deadlineOf (start_time wall_limit : Int) : Int := wrap 64 (start_time + wall_limit * 1000000)

/-! ## `cgroup.events` -/

/-- What the kernel shows in `cgroup.events`. -/
def cgroupEvents (populated : Bool) : List Char :=
  (if populated then "populated 1\nfrozen 0\n" else "populated 0\nfrozen 0\n").toList

/-- `std::strstr`: the rest of the text from the first occurrence on. -/
def strstr (text pattern : List Char) : Option (List Char) :=
  match text with
  | [] => if pattern.isEmpty then some [] else none
  | _ :: rest => if pattern.isPrefixOf text then some text else strstr rest pattern

/-- The test that `is_execution_cgroup_empty` makes on the text it read. -/
def populatedIsZero (buffer : List Char) : Bool :=
  match strstr buffer "populated ".toList with
  | none => false
  | some rest => (rest.drop "populated ".length).head? = some '0'

theorem populatedIsZero_cgroupEvents (populated : Bool) :
    populatedIsZero (cgroupEvents populated) = !populated := by
  cases populated <;> decide

namespace Runner

/-! ## Between two calls -/

def go (r : Runner) (pc : RunnerPc) : Runner := { r with pc }

/-- `return result`. -/
def give (r : Runner) (result : ExecutionResult) : Runner := { r with result, pc := .returned }

def runnerFailed (r : Runner) : Runner :=
  r.give { r.result with state := .runnerFailed, status := .runnerFailure }

def sandboxFailed (r : Runner) : Runner :=
  r.give { r.result with state := .sandboxFailed, status := .sandboxFailure }

/-- The loop sets the status of a failure and leaves the state alone. -/
def giveStatus (r : Runner) (status : ExecutionStatus) : Runner :=
  r.give { r.result with status }

def closeStdin (r : Runner) : Runner := { r with stdin_open := false }

/-- The lambda `close_pipes`. -/
def closePipes (r : Runner) : Runner :=
  { r with stdin_open := false, stdout_open := false, stderr_open := false }

def closeControl (r : Runner) : Runner := { r with control_open := false }

/-- Where the rest of an iteration begins, after the stdout, the stdin and the
control branch. -/
def pcAfterStdout (r : Runner) : RunnerPc :=
  if r.stderr_open && r.revents.stderr then .readStderr else .loop

def pcAfterStdin (r : Runner) : RunnerPc :=
  if r.stdout_open && r.revents.stdout then .readStdout else r.pcAfterStdout

/-- Past the control branch: a hung up stdin is closed on the way. -/
def afterControl (r : Runner) : Runner :=
  { r with
    stdin_open := r.stdin_open && !r.revents.stdinHup
    pc := if r.stdin_open && !r.revents.stdinHup && r.revents.stdinOut then .writeStdin
      else r.pcAfterStdin }

def afterPoll (r : Runner) : Runner :=
  if r.control_open && r.revents.control then r.go .readHeader else r.afterControl

/-- The argument of `poll` in an iteration that began at `now`. -/
def timeout (r : Runner) (now : Int) : Int :=
  if r.submission_finished then 0
  else if r.termination_requested then 10
  else if now ≥ r.deadline then 0
  else wrap 32 ((r.deadline - now).tdiv 1000000)

/-- The classification at the end of `run`. -/
def finish (r : Runner) : Runner :=
  r.give { r.result.classify r.status with
    stdout_output := r.stdout_output, stderr_output := r.stderr_output }

/-- The head of the loop: its condition and the deadline. -/
def nextIteration (r : Runner) (now : Int) : Runner :=
  if r.submission_finished && !r.stdin_open && !r.stdout_open && !r.stderr_open then
    if r.supervisor_reaped then r.finish else r.go .reapSupervisor
  else if !r.submission_finished && !r.termination_requested && r.deadline ≤ now then
    r.go .sendTerminate
  else r.go (.poll (r.timeout now))

/-- Into `cleanup_after_failure`. -/
def cleanupAfterFailure (r : Runner) (use : CleanupUse) : Runner :=
  r.closeStdin.go (if r.control_open then .cleanupTerminate use else .cleanupNoHang use 0)

/-- A cleanup routine returned. -/
def cleanupReturned (r : Runner) : Cleanup → Runner
  | .beforeReady unexpected => if unexpected then r.runnerFailed else r.sandboxFailed
  | .afterFailure .unused => r.give r.result
  | .afterFailure .runnerFailure => r.giveStatus .runnerFailure
  | .afterFailure .checked =>
    r.giveStatus (if r.containment_failed then .sandboxFailure else .runnerFailure)

/-- The closes with which both cleanup routines end. -/
def endCleanup (r : Runner) (site : Cleanup) : Runner :=
  (r.closePipes.closeControl).cleanupReturned site

/-- After the supervisor was dealt with, `cleanup_after_failure` removes a
cgroup it knows to be empty. -/
def afterReap (r : Runner) (use : CleanupUse) : Runner :=
  if r.cleanup_reaped && r.execution_contained then r.go (.accessCgroup (.afterFailure use))
  else r.endCleanup (.afterFailure use)

/-- A supervisor that did not end by itself is killed. -/
def afterContain (r : Runner) (use : CleanupUse) : Runner :=
  if r.cleanup_reaped then r.afterReap use else r.go (.killSupervisor (.afterFailure use))

/-- The kill and the emptiness check are over. -/
def contained (r : Runner) (ok : Bool) : Cleanup → Runner
  | .beforeReady u =>
    if ok then r.go (.accessCgroup (.beforeReady u))
    else { r with containment_failed := true }.endCleanup (.beforeReady u)
  | .afterFailure use =>
    (if ok then { r with execution_contained := true } else { r with containment_failed := true }
      ).afterContain use

/-- The blocking `waitpid` of a cleanup routine returned. -/
def cleanupWaited (r : Runner) (ok : Bool) : Cleanup → Runner
  | .beforeReady u => r.go (.openKill (.beforeReady u))
  | .afterFailure use =>
    (if ok then { r with cleanup_reaped := true } else { r with containment_failed := true }
      ).afterReap use

def decode (r : Runner) (type : Word32) (payload : List Byte) : Runner :=
  { r with decoded := r.decoded ++ [(type, payload)] }

/-- What `run` does with the first message. -/
def dispatch (r : Runner) (type : Word32) : Runner :=
  if type = SandboxMessageType.setupFailed.code then r.closeControl.go .reapFailed
  else if type = SandboxMessageType.ready.code then
    -- an empty input closes stdin before the loop
    { r with stdin_open := r.input ≠ [] }.go .loop
  else r.go (.killSupervisor (.beforeReady true))

/-- `receive_message` returned true with this header and payload. -/
def received (r : Runner) (header : SandboxMessageHeader) (payload : List Byte) : Runner :=
  (r.decode header.type payload).dispatch header.type

/-- `receive_message` returned false. -/
def receiveFailed (r : Runner) : Runner := r.go (.killSupervisor (.beforeReady false))

/-- `receive_message` read its header; the capacity is that of `Ready`. -/
def headerReceived (r : Runner) (header : SandboxMessageHeader) : Runner :=
  if readySize < header.payload_size.toNat then r.receiveFailed
  else if header.payload_size = 0 then r.received header []
  else r.go (.receivePayload header)

/-- The control branch of the loop read a header. -/
def handleHeader (r : Runner) (header : SandboxMessageHeader) : Runner :=
  if header.type = SandboxMessageType.setupFailed.code then
    if header.payload_size.toNat ≠ setupFailedSize then r.cleanupAfterFailure .runnerFailure
    else r.go .readSetupFailed
  else if header.type = SandboxMessageType.terminated.code then
    if header.payload_size.toNat ≠ terminatedSize then r.cleanupAfterFailure .runnerFailure
    else r.go .readTerminated
  else r.cleanupAfterFailure .runnerFailure

/-- The `SetupFailed` payload was read: into `finish_supervisor_terminal`. -/
def handleSetupFailed (r : Runner) (payload : List Byte) : Runner :=
  (r.decode SandboxMessageType.setupFailed.code payload).closeControl.go .finishSetupFailed

/-- The `Terminated` payload was read: into `finish_supervisor_terminal`. -/
def handleTerminated (r : Runner) (payload : List Byte) : Runner :=
  { r.decode SandboxMessageType.terminated.code payload with
    status := (SandboxTerminatedPayload.ofBytes payload).wait_status
    usage := (SandboxTerminatedPayload.ofBytes payload).usage
    submission_finished := true }.closeControl.go .finishTerminated

def reaped (r : Runner) : Runner := { r with supervisor_reaped := true }

/-- `finish_supervisor_terminal` succeeded after `Terminated`: the results are
settled and the pipes closed, and the iteration goes on. -/
def finishTerminated (r : Runner) (now : Int) : Runner :=
  { r with
    result := (r.result.finalizeResourceUsage r.start_time now r.usage).finalizeStatus r.status
    }.closePipes.afterControl

/-- The deadline branch sent `Terminate`. -/
def deadlineSent (r : Runner) : Runner :=
  { r with
    termination_requested := true
    result := { r.result with wall_time_limit_exceeded := true } }.closeStdin.go (.poll 10)

/-- `cleanup_after_failure` sent `Terminate`. -/
def cleanupSent (r : Runner) (use : CleanupUse) : Runner :=
  { r with termination_requested := true }.go (.cleanupNoHang use 0)

/-- What the next `write` on stdin offers. -/
def chunk (r : Runner) : List Byte := (r.input.drop r.input_offset).take ioBufferSize

/-- The new `input_offset`, and stdin closed at the end of the input. -/
def advanceInput (r : Runner) (offset : Nat) : Runner :=
  { r with input_offset := offset, stdin_open := r.stdin_open && offset ≠ r.input.length }

/-- `write` on stdin moved `n` bytes. -/
def wroteStdin (r : Runner) (n : Nat) : Runner :=
  (r.advanceInput (r.input_offset + n)).go r.pcAfterStdin

/-- `write` on stdin failed with `EPIPE`: the offset still gets -1 added and is
compared. -/
def brokenStdin (r : Runner) : Runner :=
  (r.closeStdin.advanceInput (sizeT (r.input_offset + -1))).go r.pcAfterStdin

/-- A `read` on stdout gave these bytes; none is the end of file. -/
def gotStdout (r : Runner) (bytes : List Byte) : Runner :=
  { r with
    stdout_open := r.stdout_open && bytes ≠ []
    stdout_output := r.stdout_output ++ bytes
    pc := r.pcAfterStdout }

def gotStderr (r : Runner) (bytes : List Byte) : Runner :=
  { r with
    stderr_open := r.stderr_open && bytes ≠ []
    stderr_output := r.stderr_output ++ bytes
    pc := .loop }

-- How the local functions act on a runner is routine for every invariant.
attribute [grind =] go give runnerFailed sandboxFailed giveStatus closeStdin closePipes closeControl
  pcAfterStdout pcAfterStdin afterControl afterPoll finish nextIteration cleanupAfterFailure
  cleanupReturned endCleanup afterReap afterContain contained cleanupWaited decode dispatch received
  receiveFailed headerReceived handleHeader handleSetupFailed handleTerminated reaped
  finishTerminated deadlineSent cleanupSent advanceInput wroteStdin brokenStdin gotStdout gotStderr

/-! ## Calls -/

/-- The calls up to the fork of the supervisor. -/
def setup (w : World) (n : Nat) : Answer → Option World
  | .ok =>
    if n < 5 then
      some { w with
        runner := { w.runner with
          control_open := w.runner.control_open || n = 1
          pc := .setup (n + 1) } }
    else
      some { w with
        runner := { w.runner with
          start_time := w.clock
          deadline := deadlineOf w.clock w.runner.wall_limit
          pc := .receiveHeader }
        sup := w.sup.go .mkdirCgroup }
  | .fail _ => some { w with runner := w.runner.closePipes.closeControl.runnerFailed }
  | _ => none

/-- One `read_all` of `size` bytes from the control socket. -/
def readControl (w : World) (size : Nat) (yes : List Byte → Runner) (no : Runner) :
    Answer → Option World
  | .ok =>
    if size ≤ w.toRunner.pending.length then
      some { w with
        toRunner := w.toRunner.take size
        runner := yes (w.toRunner.pending.take size) }
    else if w.controlPeer then none
    else some { w with runner := no }
  | .fail e => if e = EINTR then some w else some { w with runner := no }
  | _ => none

/-- A `send_message` of `Terminate`, one `write` of a header. -/
def sendTerminate (w : World) (yes no : Runner) : Answer → Option World
  | .ok =>
    if w.controlPeer then some { w with toSup := w.toSup.put Message.terminate.bytes, runner := yes }
    else some { w with runner := no }
  | .fail e => if e = EINTR then some w else some { w with runner := no }
  | _ => none

/-- A blocking `waitpid` on the supervisor. -/
def waitSupervisor (w : World) (yes no : Runner) : Answer → Option World
  | .ok =>
    match w.sup.pc with
    | .exited _ =>
      if w.reaped.supervisor then some { w with runner := no }
      else some { w with reaped := { w.reaped with supervisor := true }, runner := yes }
    | _ => none
  | .fail e => if e = EINTR then some w else some { w with runner := no }
  | _ => none

/-- `waitpid` with `WNOHANG` in `cleanup_after_failure`, a hundred times at most. -/
def cleanupNoHang (w : World) (use : CleanupUse) (tries : Nat) : Answer → Option World
  | .ok =>
    match w.sup.pc with
    | .exited _ =>
      if w.reaped.supervisor then
        some { w with runner := w.runner.go (.openKill (.afterFailure use)) }
      else some { w with
        reaped := { w.reaped with supervisor := true }
        runner := { w.runner with cleanup_reaped := true }.go (.openKill (.afterFailure use)) }
    | _ =>
      some { w with
        runner := w.runner.go
          (if tries + 1 < 100 then .cleanupNoHang use (tries + 1)
            else .openKill (.afterFailure use)) }
  | .fail e =>
    if e = EINTR then some w
    else some { w with runner := w.runner.go (.openKill (.afterFailure use)) }
  | _ => none

/-- `kill(supervisor_pid, SIGKILL)`, whose result is ignored. -/
def killSupervisor (w : World) (site : Cleanup) : Answer → Option World
  | .ok =>
    some { w with
      killed := { w.killed with supervisor := w.killed.supervisor || w.sup.alive }
      runner := w.runner.go (.waitSupervisor site) }
  | .fail _ => some { w with runner := w.runner.go (.waitSupervisor site) }
  | _ => none

/-- `kill_execution_cgroup` opens `cgroup.kill`. -/
def openKill (w : World) (site : Cleanup) : Answer → Option World
  | .ok =>
    some { w with
      runner := w.runner.go
        (if w.cgroup.present then .writeKill site else .checkEmpty site 0) }
  | .fail e =>
    if permission e || e = ENOENT then some { w with runner := w.runner.go (.checkEmpty site 0) }
    else some { w with runner := w.runner.contained false site }
  | _ => none

def writeKill (w : World) (site : Cleanup) : Answer → Option World
  | .ok =>
    if w.cgroup.present then
      some { w.killCgroup with runner := w.runner.go (.checkEmpty site 0) }
    else some { w with runner := w.runner.contained false site }
  | .fail e =>
    if e = EINTR then some w
    else if permission e then some { w with runner := w.runner.go (.checkEmpty site 0) }
    else some { w with runner := w.runner.contained false site }
  | _ => none

/-- `is_execution_cgroup_empty`; a failure to open or read says no. -/
def isExecutionCgroupEmpty (w : World) : Answer → Option Bool
  | .ok => some (w.cgroup.present && populatedIsZero (cgroupEvents w.populated))
  | .fail _ => some false
  | _ => none

def checkEmpty (w : World) (site : Cleanup) (tries : Nat) (x : Answer) : Option World :=
  (isExecutionCgroupEmpty w x).map fun isEmpty =>
    { w with
      runner := w.runner.go
        (if isEmpty || 100 ≤ tries + 1 then .lastCheck site else .checkEmpty site (tries + 1)) }

def lastCheck (w : World) (site : Cleanup) (x : Answer) : Option World :=
  (isExecutionCgroupEmpty w x).map fun isEmpty =>
    { w with runner := w.runner.contained isEmpty site }

/-- `cleanup_execution_cgroup` looks for the directory; one that it cannot see
counts as removed. -/
def accessCgroup (w : World) (site : Cleanup) : Answer → Option World
  | .ok =>
    some { w with
      runner := if w.cgroup.present then w.runner.go (.removeCgroup site)
        else w.runner.endCleanup site }
  | .fail _ => some { w with runner := w.runner.endCleanup site }
  | _ => none

/-- Its `rmdir`. A directory that it may not remove counts as removed. -/
def removeCgroup (w : World) (site : Cleanup) : Answer → Option World
  | .ok =>
    if w.cgroup.present && w.populated then none
    else some { w with
      cgroup := { w.cgroup with present := false }
      runner := w.runner.endCleanup site }
  | .fail e =>
    some { w with runner :=
      (if permission e || e = ENOENT then w.runner
        else { w.runner with containment_failed := true }).endCleanup site }
  | _ => none

/-- A `write` of up to `IO_BUFFER_SIZE` bytes of the input. -/
def writeStdin (w : World) : Answer → Option World
  | .count n =>
    if w.abandoned then some { w with runner := w.runner.brokenStdin }
    else if 1 ≤ n ∧ n ≤ w.runner.chunk.length then
      some { w with stdin := w.stdin.put (w.runner.chunk.take n), runner := w.runner.wroteStdin n }
    else none
  | .fail e =>
    if e = EINTR then some w
    else if e = EPIPE then some { w with runner := w.runner.brokenStdin }
    else some { w with runner := w.runner.cleanupAfterFailure .checked }
  | _ => none

/-- A `read` of at most `IO_BUFFER_SIZE` bytes: 0 only at end of file. -/
def readCount (pending : List Byte) (abandoned : Bool) (n : Nat) : Bool :=
  if pending = [] then abandoned && n = 0 else 1 ≤ n && n ≤ ioBufferSize && n ≤ pending.length

def readStdout (w : World) : Answer → Option World
  | .count n =>
    if readCount w.stdout.pending w.abandoned n then
      some { w with stdout := w.stdout.take n, runner := w.runner.gotStdout (w.stdout.pending.take n) }
    else none
  | .fail e =>
    if e = EINTR then some w
    else some { w with runner := w.runner.cleanupAfterFailure .checked }
  | _ => none

def readStderr (w : World) : Answer → Option World
  | .count n =>
    if readCount w.stderr.pending w.abandoned n then
      some { w with stderr := w.stderr.take n, runner := w.runner.gotStderr (w.stderr.pending.take n) }
    else none
  | .fail e =>
    if e = EINTR then some w
    else some { w with runner := w.runner.cleanupAfterFailure .checked }
  | _ => none

/-- The head of the loop reads the clock. -/
def loopHead (w : World) : Answer → Option World
  | .ok => some { w with runner := w.runner.nextIteration w.clock }
  | _ => none

/-- `poll` reports nothing that is not so, and may miss what just became so.
How much room stdin has is up to the kernel. -/
def poll (w : World) : Answer → Option World
  | .events revents =>
    if (revents.stdinHup → w.abandoned = true) ∧
        (revents.stdout → w.stdout.pending ≠ [] ∨ w.abandoned = true) ∧
        (revents.stderr → w.stderr.pending ≠ [] ∨ w.abandoned = true) ∧
        (revents.control → w.toRunner.pending ≠ [] ∨ w.controlPeer = false) then
      some { w with runner := { w.runner with revents }.afterPoll }
    else none
  | .fail e =>
    if e = EINTR then some w
    else some { w with runner := w.runner.cleanupAfterFailure .checked }
  | _ => none

def step (w : World) (x : Answer) : Option World :=
  match w.runner.pc with
  | .returned => none
  | .setup n => setup w n x
  | .receiveHeader =>
    readControl w headerSize (fun bytes => w.runner.headerReceived (.ofBytes bytes))
      w.runner.receiveFailed x
  | .receivePayload header =>
    readControl w header.payload_size.toNat (w.runner.received header) w.runner.receiveFailed x
  | .reapFailed =>
    waitSupervisor w w.runner.closePipes.sandboxFailed w.runner.closePipes.sandboxFailed x
  | .loop => loopHead w x
  | .sendTerminate =>
    sendTerminate w w.runner.deadlineSent (w.runner.cleanupAfterFailure .unused) x
  | .poll _ => poll w x
  | .readHeader =>
    readControl w headerSize (fun bytes => w.runner.handleHeader (.ofBytes bytes))
      (w.runner.cleanupAfterFailure .runnerFailure) x
  | .readSetupFailed =>
    readControl w setupFailedSize w.runner.handleSetupFailed
      (w.runner.cleanupAfterFailure .checked) x
  | .readTerminated =>
    readControl w terminatedSize w.runner.handleTerminated
      (w.runner.cleanupAfterFailure .checked) x
  | .finishSetupFailed =>
    waitSupervisor w (w.runner.reaped.closePipes.giveStatus .sandboxFailure)
      (w.runner.closePipes.giveStatus .sandboxFailure) x
  | .finishTerminated =>
    waitSupervisor w (w.runner.reaped.finishTerminated w.clock)
      w.runner.closePipes.runnerFailed x
  | .writeStdin => writeStdin w x
  | .readStdout => readStdout w x
  | .readStderr => readStderr w x
  | .reapSupervisor =>
    waitSupervisor w w.runner.reaped.finish (w.runner.cleanupAfterFailure .checked) x
  | .cleanupTerminate use =>
    sendTerminate w (w.runner.cleanupSent use) (w.runner.closeControl.go (.cleanupNoHang use 0)) x
  | .cleanupNoHang use tries => cleanupNoHang w use tries x
  | .killSupervisor site => killSupervisor w site x
  | .waitSupervisor site =>
    waitSupervisor w (w.runner.cleanupWaited true site) (w.runner.cleanupWaited false site) x
  | .openKill site => openKill w site x
  | .writeKill site => writeKill w site x
  | .checkEmpty site tries => checkEmpty w site tries x
  | .lastCheck site => lastCheck w site x
  | .accessCgroup site => accessCgroup w site x
  | .removeCgroup site => removeCgroup w site x

end Runner
end OnlineJudge
