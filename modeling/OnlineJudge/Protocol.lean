import OnlineJudge.Lib.Words

/-!
# The sandbox protocol

Layout of what crosses the control socket and the status pipe
(`common/sandbox_protocol.hpp`, `common/sandbox_protocol.cpp`): little-endian,
an `enum class` is a 32-bit `int`, and `sizeof` is that of a 64-bit Linux.
A message is a header and, unless it is empty, a payload, each handed to
`write_all` on its own.
-/

namespace OnlineJudge

inductive SandboxSetupStage
  | none | namespace | filesystem | identity | cgroup | capabilities | seccomp
  | processCreation | standardIO | resourceLimit | exec
  deriving DecidableEq, Repr

def SandboxSetupStage.code : SandboxSetupStage → Word32
  | none => 0
  | «namespace» => 1
  | filesystem => 2
  | identity => 3
  | cgroup => 4
  | capabilities => 5
  | seccomp => 6
  | processCreation => 7
  | standardIO => 8
  | resourceLimit => 9
  | exec => 10

inductive SandboxMessageType
  | ready | setupFailed | terminated | terminate
  deriving DecidableEq, Repr

def SandboxMessageType.code : SandboxMessageType → Word32
  | ready => 0
  | setupFailed => 1
  | terminated => 2
  | terminate => 3

/-- The type is kept as the bits received: an `enum class` variable filled from
a byte stream need not hold one of its enumerators. -/
structure SandboxMessageHeader where
  type : Word32
  payload_size : Word32
  deriving DecidableEq, Repr

structure SandboxReadyPayload where
  host_pid : Word32
  namespace_pid : Word32
  execution_id : BitVec 64
  deriving DecidableEq, Repr

structure SandboxSetupFailedPayload where
  failed_stage : Word32
  error_code : Word32
  deriving DecidableEq, Repr

/-- `struct rusage` as the 18 words of eight bytes that the kernel fills in. -/
structure Rusage where
  words : List (BitVec 64)
  count : words.length = 18
  deriving DecidableEq, Repr

structure SandboxTerminatedPayload where
  wait_status : Word32
  usage : Rusage
  deriving DecidableEq, Repr

/-! ## Sizes and byte layout -/

def headerSize : Nat := 8
def setupFailedSize : Nat := 8
def readySize : Nat := 16
def terminatedSize : Nat := 152

open LittleEndian

namespace SandboxMessageHeader

def bytes (h : SandboxMessageHeader) : List Byte := h.type.bytes ++ h.payload_size.bytes

def ofBytes (bs : List Byte) : SandboxMessageHeader :=
  ⟨.ofBytes (bs.take 4), .ofBytes (bs.drop 4)⟩

@[simp] theorem length_bytes (h : SandboxMessageHeader) : h.bytes.length = headerSize := by
  simp [bytes, headerSize]

@[simp] theorem ofBytes_bytes (h : SandboxMessageHeader) : ofBytes h.bytes = h := by
  simp [ofBytes, bytes, List.take_left', List.drop_left']

end SandboxMessageHeader

namespace SandboxSetupFailedPayload

def bytes (p : SandboxSetupFailedPayload) : List Byte :=
  p.failed_stage.bytes ++ p.error_code.bytes

def ofBytes (bs : List Byte) : SandboxSetupFailedPayload :=
  ⟨.ofBytes (bs.take 4), .ofBytes (bs.drop 4)⟩

@[simp] theorem length_bytes (p : SandboxSetupFailedPayload) :
    p.bytes.length = setupFailedSize := by
  simp [bytes, setupFailedSize]

@[simp] theorem ofBytes_bytes (p : SandboxSetupFailedPayload) : ofBytes p.bytes = p := by
  simp [ofBytes, bytes, List.take_left', List.drop_left']

end SandboxSetupFailedPayload

namespace SandboxReadyPayload

def bytes (p : SandboxReadyPayload) : List Byte :=
  p.host_pid.bytes ++ p.namespace_pid.bytes ++ bytesOf 8 p.execution_id.toNat

@[simp] theorem length_bytes (p : SandboxReadyPayload) : p.bytes.length = readySize := by
  simp [bytes, readySize]

end SandboxReadyPayload

namespace Rusage

def zero : Rusage := ⟨List.replicate 18 0, rfl⟩

def bytes (u : Rusage) : List Byte := u.words.flatMap fun w => bytesOf 8 w.toNat

/-- The structure that `bs` lays out, word by word. -/
def ofBytes (bs : List Byte) : Rusage :=
  ⟨(List.range 18).map fun i => BitVec.ofNat 64 (valueOf ((bs.drop (8 * i)).take 8)), by simp⟩

@[simp] theorem length_bytes (u : Rusage) : u.bytes.length = 144 := by
  simp [bytes, List.length_flatMap, List.map_const', u.count]

end Rusage

namespace SandboxTerminatedPayload

/-- Four bytes of padding align `struct rusage` to eight. -/
def bytes (p : SandboxTerminatedPayload) : List Byte :=
  p.wait_status.bytes ++ List.replicate 4 0 ++ p.usage.bytes

def ofBytes (bs : List Byte) : SandboxTerminatedPayload :=
  ⟨.ofBytes (bs.take 4), .ofBytes (bs.drop 8)⟩

@[simp] theorem length_bytes (p : SandboxTerminatedPayload) :
    p.bytes.length = terminatedSize := by
  simp [bytes, terminatedSize]

@[simp] theorem wait_status_ofBytes (p : SandboxTerminatedPayload) :
    (ofBytes p.bytes).wait_status = p.wait_status := by
  simp [ofBytes, bytes, List.take_left', List.append_assoc]

end SandboxTerminatedPayload

/-! ## Messages -/

/-- A message as the sender means it: a type and the bytes of its payload. -/
structure Message where
  type : SandboxMessageType
  payload : List Byte
  deriving DecidableEq, Repr

namespace Message

def header (m : Message) : SandboxMessageHeader :=
  ⟨m.type.code, BitVec.ofNat 32 m.payload.length⟩

/-- What `send_message` hands to `write_all`, in order. An empty payload is not
written at all. -/
def writes (m : Message) : List (List Byte) :=
  m.header.bytes :: if m.payload = [] then [] else [m.payload]

def bytes (m : Message) : List Byte := m.header.bytes ++ m.payload

@[simp] theorem flatten_writes (m : Message) : m.writes.flatten = m.bytes := by
  unfold writes bytes
  split <;> simp_all

def ready (p : SandboxReadyPayload) : Message := ⟨.ready, p.bytes⟩
def setupFailed (p : SandboxSetupFailedPayload) : Message := ⟨.setupFailed, p.bytes⟩
def terminated (p : SandboxTerminatedPayload) : Message := ⟨.terminated, p.bytes⟩
def terminate : Message := ⟨.terminate, []⟩

end Message

end OnlineJudge
