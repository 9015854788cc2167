import OnlineJudge.Protocol

/-!
# Execution results

`common/execution_result.hpp`, the macros of `sys/wait.h` that read a wait
status, and the tail of `ProcessRunner::run` that turns one into a result.
-/

namespace OnlineJudge

inductive ExecutionState
  | created | starting | running | finished | timedOut | signaled | failed | sandboxFailed
  | runnerFailed | cancelled
  deriving DecidableEq, Repr

inductive ExecutionStatus
  | completed | timedOut | signaled | sandboxFailure | runnerFailure
  deriving DecidableEq, Repr

/-- Durations are in the unit of their `std::chrono` type: milliseconds for
`wall_time`, microseconds for `cpu_time`. -/
structure ExecutionResult where
  status : ExecutionStatus := .runnerFailure
  state : ExecutionState := .failed
  exit_code : Nat := 1
  stdout_output : List Byte := []
  stderr_output : List Byte := []
  wall_time : Int := 0
  cpu_time : Int := 0
  memory_usage_bytes : Nat := 0
  terminated_by_signal : Bool := false
  wall_time_limit_exceeded : Bool := false
  signal_number : Nat := 0
  deriving DecidableEq, Repr

/-! ## Wait statuses -/

def WTERMSIG (status : Word32) : Nat := status.toNat % 128
def WEXITSTATUS (status : Word32) : Nat := status.toNat / 256 % 256
def WIFEXITED (status : Word32) : Bool := WTERMSIG status = 0
/-- `0x7f` in the low bits marks a stopped process. -/
def WIFSIGNALED (status : Word32) : Bool := WTERMSIG status ≠ 0 ∧ WTERMSIG status ≠ 127

/-- The status of a process that called `_exit(code)`. -/
def exitStatus (code : Nat) : Word32 := BitVec.ofNat 32 (code % 256 * 256)

/-- The status of a process killed by `sig`. -/
def signalStatus (sig : Nat) : Word32 := BitVec.ofNat 32 sig

def EXIT_FAILURE : Nat := 1
def SIGKILL : Nat := 9
def SIGSEGV : Nat := 11
def SIGXCPU : Nat := 24

theorem not_signaled_of_exited {status : Word32} (h : WIFEXITED status = true) :
    WIFSIGNALED status = false := by
  simp_all [WIFEXITED, WIFSIGNALED]

/-! ## The tail of `ProcessRunner::run` -/

/-- A signed word of `struct rusage`. -/
def Rusage.long (u : Rusage) (i : Nat) : Int := (u.words.getD i 0).toInt

/-- `to_microseconds` of the two words of a `timeval` at index `i`. -/
def Rusage.microseconds (u : Rusage) (i : Nat) : Int := u.long i * 1000000 + u.long (i + 1)

namespace ExecutionResult

/-- The lambda `finalize_resource_usage`; clock readings are in nanoseconds.
`ru_utime`, `ru_stime` and `ru_maxrss` are the words 0, 2 and 4. -/
def finalizeResourceUsage (result : ExecutionResult) (start_time end_time : Int) (usage : Rusage) :
    ExecutionResult :=
  { result with
    wall_time := (end_time - start_time).tdiv 1000000
    cpu_time := usage.microseconds 0 + usage.microseconds 2
    memory_usage_bytes := (usage.words.getD 4 0).toNat * 1024 % 2 ^ 64 }

/-- The lambda `finalize_status`. -/
def finalizeStatus (result : ExecutionResult) (status : Word32) : ExecutionResult :=
  if WIFEXITED status then { result with exit_code := WEXITSTATUS status }
  else if WIFSIGNALED status then
    { result with terminated_by_signal := true, signal_number := WTERMSIG status }
  else result

/-- The classification after the loop. -/
def classify (result : ExecutionResult) (status : Word32) : ExecutionResult :=
  if result.wall_time_limit_exceeded then
    { result with state := .timedOut, status := .timedOut }
  else if WIFSIGNALED status then { result with state := .signaled, status := .signaled }
  else { result with state := .finished, status := .completed }

attribute [grind =] finalizeResourceUsage finalizeStatus classify

end ExecutionResult

end OnlineJudge
