import OnlineJudge.Lib.Channel
import OnlineJudge.StatusPipe
import OnlineJudge.Result

/-!
# The state of an execution

`ProcessRunner::run` is one execution of four processes: the runner, the
supervisor it forks, Child A and Child B. Each is a program counter, named
after the call it is about to make, with the local variables that are still
read; the kernel objects between them are the control socket, the pipes, the
execution cgroup and the pending kills.

One step is one system call. A record of the protocol is written by one atomic
`write`, and the several `read` calls of one `read_all` are one step: no other
process reads from the same descriptor, so nobody can tell.
-/

namespace OnlineJudge

/-! ## Answers of the kernel -/

abbrev Errno := Word32

def EPERM : Errno := 1
def ENOENT : Errno := 2
def EINTR : Errno := 4
def EACCES : Errno := 13
def EBUSY : Errno := 16
def EEXIST : Errno := 17
def EPIPE : Errno := 32

/-- The permission errors that the cgroup code takes for a host without
cgroup access. -/
def permission (e : Errno) : Bool := e = EPERM || e = EACCES

/-- The `revents` of the runner's `poll`. -/
structure Revents where
  stdinHup : Bool := false
  stdinOut : Bool := false
  stdout : Bool := false
  stderr : Bool := false
  control : Bool := false
  deriving DecidableEq

/-- What the kernel chooses when a process makes its call. -/
inductive Answer
  /-- The call does what it is for; where that takes another process (a blocking
  read or wait, a socket whose peer is closed) the state decides how it ends. -/
  | ok
  /-- The call returns -1 with this `errno`. -/
  | fail (e : Errno)
  /-- `n` bytes were moved, or the child got process id `n`. -/
  | count (n : Nat)
  /-- The `revents` found by the runner's `poll`. -/
  | events (r : Revents)
  /-- The `revents` found by the supervisor's `poll`. -/
  | ready (control status : Bool)
  /-- The usage that `wait4` reports if it reaps. -/
  | reap (u : Rusage)
  deriving DecidableEq

/-- The call fails with such an `errno`. -/
def Answer.failsWith (x : Answer) (p : Errno → Bool) : Bool :=
  match x with
  | .fail e => p e
  | _ => false

/-! ## Children -/

/-- The calls whose failure is a setup failure, in both children. The bind
mounts of `/lib`, `/lib64`, `/usr` and `/bin` are not among them: their errors
are ignored. -/
inductive SetupCall
  | unshareUser | openSetgroups | writeSetgroups | openUidMap | writeUidMap | openGidMap
  | writeGidMap | unshareMount | makePrivate | bindRoot | unsharePid
  | createExecutable | mountExecutable | mkdirOldRoot | pivotRoot | chdirRoot | umountOldRoot
  | rmdirOldRoot | mkdirProc | mountProc
  | dupStdin | dupStdout | dupStderr | limitCpu | limitMemory | exec
  deriving DecidableEq

namespace SetupCall

def stage : SetupCall → SandboxSetupStage
  | unshareUser | openSetgroups | writeSetgroups | openUidMap | writeUidMap | openGidMap
  | writeGidMap => .identity
  | unsharePid => .namespace
  | dupStdin | dupStdout | dupStderr => SandboxSetupStage.standardIO
  | limitCpu | limitMemory => .resourceLimit
  | exec => .exec
  | _ => .filesystem

/-- `setupUserNamespace` is given `control_fd`, and the bind mount of the root
reports there too; every other call reports on `status_fd`. -/
def onControl : SetupCall → Bool
  | unshareUser | openSetgroups | writeSetgroups | openUidMap | writeUidMap | openGidMap
  | writeGidMap | bindRoot => true
  | _ => false

/-- `Sandbox::execute` has a report routine of its own. -/
def report : SetupCall → FailureReport
  | dupStdin | dupStdout | dupStderr | limitCpu | limitMemory | exec => .reportFailure
  | _ => .failSetup

end SetupCall

/-- Child A, from its read of the sync pipe to the fork of Child B. -/
def childASetup : List SetupCall :=
  [.unshareUser, .openSetgroups, .writeSetgroups, .openUidMap, .writeUidMap, .openGidMap,
    .writeGidMap, .unshareMount, .makePrivate, .bindRoot, .unsharePid]

/-- Child B: `finalizeExecutionEnvironment`, then `execute`. -/
def childBSetup : List SetupCall :=
  [.createExecutable, .mountExecutable, .mkdirOldRoot, .pivotRoot, .chdirRoot, .umountOldRoot,
    .rmdirOldRoot, .mkdirProc, .mountProc, .dupStdin, .dupStdout, .dupStderr, .limitCpu,
    .limitMemory, .exec]

inductive ChildA
  | unborn
  /-- Reading the release byte. -/
  | awaitRelease
  | setup (call : SetupCall) (rest : List SetupCall)
  /-- `failSetup` on the control socket or the status pipe, then `_exit`. -/
  | report (onControl : Bool) (writes : List (List Byte))
  | fork
  /-- Waiting for Child B. -/
  | waitB
  /-- `write_wait_status`. -/
  | forward (b_status : Word32) (writes : List (List Byte))
  | closeStatus (b_status : Word32)
  /-- The status pipe is closed; what is left is to end as Child B did. -/
  | leave (b_status : Word32)
  | exited (wait_status : Word32)
  deriving DecidableEq

inductive ChildB
  | unborn
  | setup (call : SetupCall) (rest : List SetupCall)
  | report (writes : List (List Byte))
  /-- The submission, after `execvp`. -/
  | running
  | exited (wait_status : Word32)
  deriving DecidableEq

namespace ChildA

def alive : ChildA → Bool
  | unborn | exited _ => false
  | _ => true

/-- Holds the write end of the status pipe. -/
def holdsStatus : ChildA → Bool
  | unborn | exited _ | leave _ => false
  | _ => true

end ChildA

namespace ChildB

def alive : ChildB → Bool
  | unborn | exited _ => false
  | _ => true

/-- Holds `control_fd` and `status_fd`: both are closed by `execvp`. -/
def beforeExec : ChildB → Bool
  | setup _ _ | report _ => true
  | _ => false

end ChildB

/-! ## Supervisor -/

/-- Callers of `Sandbox::terminate`. -/
inductive TerminateCaller
  | loop
  | failure
  deriving DecidableEq

/-- Callers of `Sandbox::cleanupCgroup`. -/
inductive CleanupCaller
  /-- `createExecutionProcess` returned no process. -/
  | noProcess
  /-- A setup failure was read from the status pipe. -/
  | payload (failure : SandboxSetupFailedPayload)
  /-- Child A was reaped by the loop. -/
  | finished
  deriving DecidableEq

/-- Callers of `send_message` in the supervisor. -/
inductive SendCaller
  /-- `failSetup` in `setupCgroup` and `prepareEnvironment`. -/
  | prepare
  | ready
  | setupFailed
  | terminated
  deriving DecidableEq

inductive SupervisorPc
  | unborn
  | mkdirCgroup
  | mkdtemp
  /-- `pipe`, `pipe`, `fcntl(F_GETFD)` and `fcntl(F_SETFD)`, by number. -/
  | createPipes (n : Nat)
  | fork
  | openProcs
  | writeProcs
  | release
  /-- `cleanup_failed_child`. -/
  | killChild
  | waitKilledChild
  | send (caller : SendCaller) (writes : List (List Byte))
  | poll
  | readControl
  | openKill (caller : TerminateCaller)
  | writeKill (caller : TerminateCaller)
  | readStatus
  /-- The blocking `wait4` after a setup failure was read. -/
  | waitFailed (failure : SandboxSetupFailedPayload)
  | waitNoHang
  | removeCgroup (caller : CleanupCaller) (retries : Nat)
  /-- `cleanup_supervisor_failure`, after its `terminate`. -/
  | failureKill
  | failureWait
  | exited (wait_status : Word32)
  deriving DecidableEq

structure Supervisor where
  pc : SupervisorPc := .unborn
  /-- `process.host_pid`. -/
  host_pid : Word32 := 0
  /-- `cgroup_path_` is not empty. -/
  cgroup_path : Bool := false
  startup_status_open : Bool := true
  termination_requested : Bool := false
  status : Word32 := 0
  usage : Rusage := .zero
  forwarded_child_status : Word32 := 0
  has_forwarded_status : Bool := false
  /-- `poll_fds[1].revents`. -/
  status_ready : Bool := false
  deriving DecidableEq

def Supervisor.alive (s : Supervisor) : Bool :=
  match s.pc with
  | .unborn | .exited _ => false
  | _ => true

/-- Holds the write end of the sync pipe while Child A may be reading it. -/
def Supervisor.holdsSync (s : Supervisor) : Bool :=
  match s.pc with
  | .openProcs | .writeProcs | .release | .killChild | .waitKilledChild => true
  | _ => false

/-! ## Runner -/

/-- What a call site does with the result of `cleanup_after_failure`. -/
inductive CleanupUse
  /-- `cleanup_after_failure(); return result;` -/
  | unused
  /-- `cleanup_after_failure();` and the status is `RunnerFailure`. -/
  | runnerFailure
  /-- `cleanup_ok ? RunnerFailure : SandboxFailure`. -/
  | checked
  deriving DecidableEq

/-- The two cleanup routines, with their call sites. -/
inductive Cleanup
  /-- `cleanup_before_ready`; its result is never used. `unexpected` tells the
  call after an unexpected message from the one after a failed receive. -/
  | beforeReady (unexpected : Bool)
  | afterFailure (use : CleanupUse)
  deriving DecidableEq

inductive RunnerPc
  /-- `sigaction`, `socketpair`, three times `pipe`, and `fork`, by number. -/
  | setup (n : Nat)
  | receiveHeader
  | receivePayload (header : SandboxMessageHeader)
  /-- `SetupFailed` came instead of `Ready`. -/
  | reapFailed
  /-- The head of the loop. -/
  | loop
  | sendTerminate
  | poll (timeout : Int)
  | readHeader
  | readSetupFailed
  | readTerminated
  /-- `finish_supervisor_terminal` after one of the two. -/
  | finishSetupFailed
  | finishTerminated
  | writeStdin
  | readStdout
  | readStderr
  /-- The `waitpid` after the loop. -/
  | reapSupervisor
  /-- `cleanup_after_failure` sends `Terminate`. -/
  | cleanupTerminate (use : CleanupUse)
  | cleanupNoHang (use : CleanupUse) (tries : Nat)
  | killSupervisor (site : Cleanup)
  | waitSupervisor (site : Cleanup)
  /-- `kill_execution_cgroup`. -/
  | openKill (site : Cleanup)
  | writeKill (site : Cleanup)
  /-- `is_execution_cgroup_empty`, up to a hundred times and once more. -/
  | checkEmpty (site : Cleanup) (tries : Nat)
  | lastCheck (site : Cleanup)
  /-- `cleanup_execution_cgroup`. -/
  | accessCgroup (site : Cleanup)
  | removeCgroup (site : Cleanup)
  | returned
  deriving DecidableEq

structure Runner where
  pc : RunnerPc := .setup 0
  input : List Byte
  /-- `config.limit.wall_limit`, in milliseconds. -/
  wall_limit : Int
  start_time : Int := 0
  deadline : Int := 0
  input_offset : Nat := 0
  /-- `control_socket[0]` is open (`control_channel_open` once the loop runs). -/
  control_open : Bool := false
  stdin_open : Bool := true
  stdout_open : Bool := true
  stderr_open : Bool := true
  termination_requested : Bool := false
  supervisor_reaped : Bool := false
  submission_finished : Bool := false
  status : Word32 := 0
  usage : Rusage := .zero
  stdout_output : List Byte := []
  stderr_output : List Byte := []
  revents : Revents := {}
  result : ExecutionResult := { state := .created, exit_code := 1 }
  /-- Locals of `cleanup_after_failure`; `containment_failed` also records that
  `cleanup_before_ready` returned false. -/
  containment_failed : Bool := false
  execution_contained : Bool := false
  cleanup_reaped : Bool := false
  /-- Type and payload of every message decoded so far; no variable of the
  source. -/
  decoded : List (Word32 × List Byte) := []
  deriving DecidableEq

/-! ## World -/

/-- The execution cgroup: whether its directory exists, and which children were
placed in it (Child B by being forked there). -/
structure Cgroup where
  present : Bool := false
  hasA : Bool := false
  hasB : Bool := false
  deriving DecidableEq

/-- One flag for each process that another one can kill or reap. -/
structure Flags where
  supervisor : Bool := false
  childA : Bool := false
  childB : Bool := false
  deriving DecidableEq

structure World where
  /-- `steady_clock`, in nanoseconds. -/
  clock : Int
  runner : Runner
  sup : Supervisor := {}
  childA : ChildA := .unborn
  childB : ChildB := .unborn
  /-- The control socket, one direction each. -/
  toRunner : Channel Byte := .empty
  toSup : Channel Byte := .empty
  statusPipe : Channel Byte := .empty
  /-- The release byte was written to the sync pipe. -/
  released : Bool := false
  stdin : Channel Byte := .empty
  stdout : Channel Byte := .empty
  stderr : Channel Byte := .empty
  cgroup : Cgroup := {}
  /-- A `SIGKILL` was sent and has not taken effect yet. -/
  killed : Flags := {}
  reaped : Flags := {}
  deriving DecidableEq

namespace World

/-- No process but the runner is left, so nobody holds the far ends of the
standard streams. -/
def abandoned (w : World) : Bool := !(w.sup.alive || w.childA.alive || w.childB.alive)

/-- Some process holds `control_socket[1]`. -/
def controlPeer (w : World) : Bool := w.sup.alive || w.childA.alive || w.childB.beforeExec

/-- Some process holds the write end of the status pipe. -/
def statusWriter (w : World) : Bool := w.childA.holdsStatus || w.childB.beforeExec

/-- The supervisor still holds the read end of the status pipe. -/
def statusReader (w : World) : Bool := w.sup.alive && w.sup.startup_status_open

/-- The `populated` line of `cgroup.events`. -/
def populated (w : World) : Bool :=
  w.cgroup.hasA && w.childA.alive || w.cgroup.hasB && w.childB.alive

/-- A successful write to `cgroup.kill`. -/
@[grind =] def killCgroup (w : World) : World :=
  { w with killed :=
    { w.killed with
      childA := w.killed.childA || w.cgroup.hasA && w.childA.alive
      childB := w.killed.childB || w.cgroup.hasB && w.childB.alive } }

end World

end OnlineJudge
