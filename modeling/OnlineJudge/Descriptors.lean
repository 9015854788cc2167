import OnlineJudge.Lib.Lifetime
import OnlineJudge.System

/-!
# The descriptors of the runner

`run` creates eight descriptors and closes them in many places, some behind the
open flags of the loop and some not. This module lists, for every call of the
runner, what it creates, reads or writes, and closes.
-/

namespace OnlineJudge

/-- Both ends of the control socket and of the three pipes: `control0` is
`control_socket[0]`, and so on. -/
inductive Descriptor
  | control0 | control1 | stdin0 | stdin1 | stdout0 | stdout1 | stderr0 | stderr1
  deriving DecidableEq

namespace Descriptor

/-- The call that creates it, by its number in the setup. -/
def creation : Descriptor → Nat
  | control0 | control1 => 1
  | stdin0 | stdin1 => 2
  | stdout0 | stdout1 => 3
  | stderr0 | stderr1 => 4

def all : List Descriptor :=
  [control0, control1, stdin0, stdin1, stdout0, stdout1, stderr0, stderr1]

end Descriptor

open Descriptor

/-- Closed behind an open flag. -/
def closeIf (flag : Bool) (d : Descriptor) : List Descriptor := if flag then [d] else []

namespace Runner

/-! ## What the local functions close -/

/-- `close_pipes`. -/
def closePipesCloses (r : Runner) : List Descriptor :=
  closeIf r.stdin_open stdin1 ++ closeIf r.stdout_open stdout0 ++ closeIf r.stderr_open stderr0

/-- The start of `finish_supervisor_terminal`. -/
def finishCloses (r : Runner) : List Descriptor := closeIf r.control_open control0

/-- The start of `cleanup_after_failure`. -/
def cleanupAfterFailureCloses (r : Runner) : List Descriptor := closeIf r.stdin_open stdin1

/-- The end of the cleanup routines; `cleanup_before_ready` looks at no flag. -/
def endCleanupCloses (r : Runner) : Cleanup → List Descriptor
  | .beforeReady _ => [control0, stdin1, stdout0, stderr0]
  | .afterFailure _ =>
    closeIf r.stdout_open stdout0 ++ closeIf r.stderr_open stderr0 ++ closeIf r.control_open control0

def afterReapCloses (r : Runner) (use : CleanupUse) : List Descriptor :=
  if r.cleanup_reaped && r.execution_contained then [] else r.endCleanupCloses (.afterFailure use)

def afterContainCloses (r : Runner) (use : CleanupUse) : List Descriptor :=
  if r.cleanup_reaped then r.afterReapCloses use else []

def containedCloses (r : Runner) (ok : Bool) : Cleanup → List Descriptor
  | .beforeReady u => if ok then [] else r.endCleanupCloses (.beforeReady u)
  | .afterFailure use =>
    (if ok then { r with execution_contained := true } else { r with containment_failed := true }
      ).afterContainCloses use

def cleanupWaitedCloses (r : Runner) (ok : Bool) : Cleanup → List Descriptor
  | .beforeReady _ => []
  | .afterFailure use =>
    (if ok then { r with cleanup_reaped := true } else { r with containment_failed := true }
      ).afterReapCloses use

/-- The first message: only `Ready` closes the ends that are the supervisor's. -/
def dispatchCloses (r : Runner) (type : Word32) : List Descriptor :=
  if type = SandboxMessageType.setupFailed.code then [control0]
  else if type = SandboxMessageType.ready.code then
    [stdout1, stderr1, stdin0] ++ if r.input = [] then [stdin1] else []
  else []

def headerReceivedCloses (r : Runner) (header : SandboxMessageHeader) : List Descriptor :=
  if readySize < header.payload_size.toNat then []
  else if header.payload_size = 0 then r.dispatchCloses header.type
  else []

def handleHeaderCloses (r : Runner) (header : SandboxMessageHeader) : List Descriptor :=
  if header.type = SandboxMessageType.setupFailed.code then
    if header.payload_size.toNat ≠ setupFailedSize then r.cleanupAfterFailureCloses else []
  else if header.type = SandboxMessageType.terminated.code then
    if header.payload_size.toNat ≠ terminatedSize then r.cleanupAfterFailureCloses else []
  else r.cleanupAfterFailureCloses

/-- A hung up stdin. -/
def afterControlCloses (r : Runner) : List Descriptor :=
  closeIf (r.stdin_open && r.revents.stdinHup) stdin1

def afterPollCloses (r : Runner) : List Descriptor :=
  if r.control_open && r.revents.control then [] else r.afterControlCloses

/-- The end of the input; no flag is looked at. -/
def advanceInputCloses (r : Runner) (offset : Nat) : List Descriptor :=
  if offset = r.input.length then [stdin1] else []

/-- `EPIPE` closes stdin, and goes on to compare the offset. -/
def brokenStdinCloses (r : Runner) : List Descriptor :=
  stdin1 :: r.advanceInputCloses (sizeT (r.input_offset + -1))

/-! ## What the calls do -/

def setupCloses (n : Nat) : Answer → List Descriptor
  | .ok => if n < 5 then [] else [control1]
  | .fail _ => all.filter (·.creation < n)
  | _ => []

def readCloses (w : World) (size : Nat) (yes : List Byte → List Descriptor)
    (no : List Descriptor) : Answer → List Descriptor
  | .ok =>
    if size ≤ w.toRunner.pending.length then yes (w.toRunner.pending.take size) else no
  | .fail e => if e = EINTR then [] else no
  | _ => []

def sendCloses (w : World) (yes no : List Descriptor) : Answer → List Descriptor
  | .ok => if w.controlPeer then yes else no
  | .fail e => if e = EINTR then [] else no
  | _ => []

def waitCloses (w : World) (yes no : List Descriptor) : Answer → List Descriptor
  | .ok => if w.reaped.supervisor then no else yes
  | .fail e => if e = EINTR then [] else no
  | _ => []

/-- A transfer on one of the streams. -/
def transferCloses (r : Runner) (moved : Nat → List Descriptor) : Answer → List Descriptor
  | .count n => moved n
  | .fail e => if e = EINTR then [] else r.cleanupAfterFailureCloses
  | _ => []

/-- The descriptors that a call closes, in order. -/
def closes (w : World) (x : Answer) : List Descriptor :=
  match w.runner.pc with
  | .setup n => setupCloses n x
  | .receiveHeader =>
    readCloses w headerSize (fun bytes => w.runner.headerReceivedCloses (.ofBytes bytes)) [] x
  | .receivePayload header =>
    readCloses w header.payload_size.toNat (fun _ => w.runner.dispatchCloses header.type) [] x
  | .reapFailed => waitCloses w [stdin1, stdout0, stderr0] [stdin1, stdout0, stderr0] x
  | .sendTerminate =>
    sendCloses w (closeIf w.runner.stdin_open stdin1) w.runner.cleanupAfterFailureCloses x
  | .poll _ =>
    match x with
    | .events revents => { w.runner with revents }.afterPollCloses
    | .fail e => if e = EINTR then [] else w.runner.cleanupAfterFailureCloses
    | _ => []
  | .readHeader =>
    readCloses w headerSize (fun bytes => w.runner.handleHeaderCloses (.ofBytes bytes))
      w.runner.cleanupAfterFailureCloses x
  | .readSetupFailed =>
    readCloses w setupFailedSize (fun _ => w.runner.finishCloses)
      w.runner.cleanupAfterFailureCloses x
  | .readTerminated =>
    readCloses w terminatedSize (fun _ => w.runner.finishCloses)
      w.runner.cleanupAfterFailureCloses x
  | .finishSetupFailed | .finishTerminated =>
    waitCloses w w.runner.closePipesCloses w.runner.closePipesCloses x
  | .writeStdin =>
    match x with
    | .fail e =>
      if e = EINTR then [] else if e = EPIPE then w.runner.brokenStdinCloses
      else w.runner.cleanupAfterFailureCloses
    | .count n =>
      if w.abandoned then w.runner.brokenStdinCloses
      else w.runner.advanceInputCloses (w.runner.input_offset + n)
    | _ => []
  | .readStdout =>
    transferCloses w.runner (fun n => closeIf (w.stdout.pending.take n = []) stdout0) x
  | .readStderr =>
    transferCloses w.runner (fun n => closeIf (w.stderr.pending.take n = []) stderr0) x
  | .reapSupervisor => waitCloses w [] w.runner.cleanupAfterFailureCloses x
  | .cleanupTerminate _ => sendCloses w [] [control0] x
  | .waitSupervisor site =>
    waitCloses w (w.runner.cleanupWaitedCloses true site) (w.runner.cleanupWaitedCloses false site) x
  | .openKill site =>
    if x.failsWith fun e => !(permission e || e = ENOENT) then w.runner.containedCloses false site
    else []
  | .writeKill site =>
    if x.failsWith (fun e => !(e = EINTR || permission e)) || x = .ok && !w.cgroup.present then
      w.runner.containedCloses false site
    else []
  | .lastCheck site =>
    (isExecutionCgroupEmpty w x).elim [] fun isEmpty => w.runner.containedCloses isEmpty site
  | .accessCgroup site =>
    if x = .ok && w.cgroup.present then [] else w.runner.endCleanupCloses site
  | .removeCgroup site => w.runner.endCleanupCloses site
  | .loop | .killSupervisor _ | .cleanupNoHang _ _ | .checkEmpty _ _ | .returned => []

/-- The descriptors that a call reads or writes. -/
def touches (w : World) : List Descriptor :=
  match w.runner.pc with
  | .receiveHeader | .receivePayload _ | .readHeader | .readSetupFailed | .readTerminated
  | .sendTerminate | .cleanupTerminate _ => [control0]
  | .writeStdin => [stdin1]
  | .readStdout => [stdout0]
  | .readStderr => [stderr0]
  | _ => []

/-- The descriptors that a call creates. -/
def creates (w : World) (x : Answer) : List Descriptor :=
  match w.runner.pc with
  | .setup n =>
    if x = .ok then all.filter (·.creation = n) else []
  | _ => []

end Runner

/-- What a step does to a descriptor in the runner. -/
def descriptorHandlings (d : Descriptor) (w : World) : Act → List Handling
  | .runner x =>
    List.replicate ((Runner.creates w x).count d) .acquired ++
      List.replicate ((Runner.touches w).count d) .used ++
      List.replicate ((Runner.closes w x).count d) .released
  | _ => []

end OnlineJudge
