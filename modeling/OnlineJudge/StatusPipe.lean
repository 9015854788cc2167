import OnlineJudge.Protocol
import OnlineJudge.Transfer

/-!
# The status pipe

Three writers feed `status_fd`: `Sandbox::failSetup` (a whole message, through
`send_message`), `report_failure` in `Sandbox::execute` (the bare payload) and
`write_wait_status` (a tag and an `int`). `read_status_pipe` tells the last two
apart by the first byte.
-/

namespace OnlineJudge

/-- `SandboxWaitStatusPayload::TAG`. -/
def tag : Byte := 0xFF

inductive StatusPipeReadResult
  | payload (failure : SandboxSetupFailedPayload)
  | eof
  | error
  | waitStatus (wait_status : Word32)
  deriving DecidableEq, Repr

/-- `read_status_pipe`, with the bytes and answers it leaves behind. -/
def readStatusPipe (source : List Byte) :
    List IoAnswer → Option (StatusPipeReadResult × List Byte × List IoAnswer)
  | [] => none
  | .interrupted :: script => readStatusPipe source script
  | .failed :: script => some (.error, source, script)
  | .nothing :: script => some (.eof, source, script)
  | .count _ :: script =>
    match source with
    | [] => none
    | first :: rest =>
      if first = tag then
        (readAll 4 [] rest script).map fun t =>
          (if t.ok then .waitStatus (.ofBytes t.got) else .error, t.source, t.script)
      else
        (readAll setupFailedSize [first] rest script).map fun t =>
          (if t.ok then .payload (.ofBytes t.got) else .error, t.source, t.script)

/-- What `read_status_pipe` makes of the bytes waiting in the pipe, and how
many of them it takes; `none` while it would block. `closed` says that no write
end is open any more. -/
def nextRecord (pending : List Byte) (closed : Bool) : Option (StatusPipeReadResult × Nat) :=
  match pending with
  | [] => if closed then some (.eof, 0) else none
  | first :: rest =>
    if first = tag then
      if 4 ≤ rest.length then some (.waitStatus (.ofBytes (rest.take 4)), 5)
      else if closed then some (.error, pending.length) else none
    else if setupFailedSize ≤ pending.length then
      some (.payload (.ofBytes (pending.take setupFailedSize)), setupFailedSize)
    else if closed then some (.error, pending.length) else none

/-- However the kernel splits the bytes, the loops decode the record that the
waiting bytes spell, and leave what follows it. -/
theorem readStatusPipe_steady {script : List IoAnswer} (hs : Steady script)
    {source left : List Byte} {r : StatusPipeReadResult} {script' : List IoAnswer}
    (h : readStatusPipe source script = some (r, left, script')) (closed : Bool) :
    ∃ n, nextRecord source closed = some (r, n) ∧ left = source.drop n := by
  induction script with
  | nil => cases h
  | cons a rest ih =>
    cases a with
    | interrupted => exact ih hs.tail h
    | failed => exact absurd rfl (hs .failed List.mem_cons_self).1
    | nothing => exact absurd rfl (hs .nothing List.mem_cons_self).2
    | count k =>
      cases source with
      | nil => cases h
      | cons first tail =>
        simp only [readStatusPipe] at h
        split at h
        · rename_i htag
          obtain ⟨t, ht, hr⟩ := Option.map_eq_some_iff.1 h
          obtain ⟨hok, hgot, hleft, hle⟩ := readAll_steady hs.tail (by simp) ht
          cases hr
          refine ⟨5, ?_, by simpa using hleft⟩
          simp [nextRecord, htag, hok, hgot, show 4 ≤ tail.length by simpa using hle]
        · rename_i htag
          obtain ⟨t, ht, hr⟩ := Option.map_eq_some_iff.1 h
          obtain ⟨hok, hgot, hleft, hle⟩ :=
            readAll_steady hs.tail (by simp [setupFailedSize]) ht
          cases hr
          have hlen : setupFailedSize ≤ (first :: tail).length := by
            simp only [setupFailedSize, List.length_cons, List.length_nil] at hle ⊢
            omega
          refine ⟨setupFailedSize, ?_, by simpa [setupFailedSize] using hleft⟩
          simp only [nextRecord, if_neg htag, if_pos hlen, hok, if_true, hgot]
          simp [setupFailedSize]

/-- Eight calls that move bytes are enough to return. -/
theorem readStatusPipe_terminates {script : List IoAnswer} (hs : Steady script)
    {source : List Byte} {closed : Bool} {r : StatusPipeReadResult} {n : Nat}
    (hr : nextRecord source closed = some (r, n)) (hgood : r ≠ .error) (hne : r ≠ .eof)
    (hm : setupFailedSize ≤ moves script) :
    ∃ left script', readStatusPipe source script = some (r, left, script') := by
  suffices hx : ∃ x, readStatusPipe source script = some x by
    obtain ⟨⟨r', left, script'⟩, hx⟩ := hx
    obtain ⟨n', hn', -⟩ := readStatusPipe_steady hs hx closed
    rw [hr] at hn'
    cases hn'
    exact ⟨left, script', hx⟩
  induction script with
  | nil => simp [moves, setupFailedSize] at hm
  | cons a rest ih =>
    cases a with
    | interrupted => exact ih hs.tail (by simpa [moves] using hm)
    | failed => exact absurd rfl (hs .failed List.mem_cons_self).1
    | nothing => exact absurd rfl (hs .nothing List.mem_cons_self).2
    | count k =>
      have hm' : setupFailedSize ≤ moves rest + 1 := by simpa [moves] using hm
      cases source with
      | nil => simp [nextRecord] at hr; exact absurd hr.2.1.symm hne
      | cons first tail =>
        simp only [setupFailedSize] at hm'
        simp only [readStatusPipe]
        simp only [nextRecord] at hr
        split at hr
        · rename_i htag
          split at hr
          · rename_i hlen
            obtain ⟨t, ht⟩ : ∃ t, readAll 4 [] tail rest = some t :=
              readAll_terminates hs.tail (by simpa using hlen) (by simp; omega)
            exact ⟨_, by rw [if_pos htag, ht]; rfl⟩
          · split at hr <;> cases hr
            exact absurd rfl hgood
        · rename_i htag
          split at hr
          · rename_i hlen
            simp only [setupFailedSize, List.length_cons] at hlen
            obtain ⟨t, ht⟩ : ∃ t, readAll setupFailedSize [first] tail rest = some t :=
              readAll_terminates hs.tail (by simp [setupFailedSize]; omega)
                (by simp [setupFailedSize]; omega)
            exact ⟨_, by rw [if_neg htag, ht]; rfl⟩
          · split at hr <;> cases hr
            exact absurd rfl hgood

/-! ## Reports of a setup failure -/

/-- The two routines that report a failure on `status_fd`. -/
inductive FailureReport
  /-- `Sandbox::failSetup`, called from Child A and `finalizeExecutionEnvironment`. -/
  | failSetup
  /-- The lambda `report_failure` of `Sandbox::execute`. -/
  | reportFailure
  deriving DecidableEq, Repr

def setupFailure (stage : SandboxSetupStage) (error_code : Word32) : SandboxSetupFailedPayload :=
  ⟨stage.code, error_code⟩

/-- The calls of `write_all` a report makes. -/
def FailureReport.writes (stage : SandboxSetupStage) (error_code : Word32) :
    FailureReport → List (List Byte)
  | failSetup => (Message.setupFailed (setupFailure stage error_code)).writes
  | reportFailure => [(setupFailure stage error_code).bytes]

/-- The `SetupFailed` message that the supervisor sends on the control channel
when `read_status_pipe` hands it a payload. -/
def relayed : StatusPipeReadResult → Option Message
  | .payload failure => some (.setupFailed failure)
  | _ => none

/-- No stage starts with the byte that tags a wait status. -/
theorem stage_head_ne_tag (stage : SandboxSetupStage) :
    BitVec.ofNat 8 stage.code.toNat ≠ tag := by
  cases stage <;> decide

theorem failure_bytes_cons (stage : SandboxSetupStage) (e : Word32) :
    ∃ rest, (setupFailure stage e).bytes = BitVec.ofNat 8 stage.code.toNat :: rest :=
  ⟨_, rfl⟩

/-- The bare payload is decoded as it was meant. -/
theorem nextRecord_reportFailure (stage : SandboxSetupStage) (e : Word32) (rest : List Byte)
    (closed : Bool) :
    nextRecord ((setupFailure stage e).bytes ++ rest) closed =
      some (.payload (setupFailure stage e), setupFailedSize) := by
  obtain ⟨tail, ht⟩ := failure_bytes_cons stage e
  have hlen : setupFailedSize ≤ ((setupFailure stage e).bytes ++ rest).length := by simp
  have htake : ((setupFailure stage e).bytes ++ rest).take setupFailedSize =
      (setupFailure stage e).bytes := List.take_left' (by simp)
  rw [ht, List.cons_append] at hlen htake ⊢
  simp only [nextRecord, if_neg (stage_head_ne_tag stage), if_pos hlen, htake]
  rw [← ht, SandboxSetupFailedPayload.ofBytes_bytes]

/-- A whole message is decoded by its header: the type is taken for the stage
and the size for the error code. -/
theorem nextRecord_failSetup (p : SandboxSetupFailedPayload) (rest : List Byte) (closed : Bool) :
    nextRecord ((Message.setupFailed p).bytes ++ rest) closed =
      some (.payload (setupFailure .namespace 8), setupFailedSize) := by
  have hheader : (Message.setupFailed p).bytes =
      (setupFailure .namespace 8).bytes ++ p.bytes := by
    simp [Message.bytes, Message.header, Message.setupFailed, SandboxMessageHeader.bytes,
      SandboxSetupFailedPayload.bytes, setupFailure, SandboxMessageType.code,
      SandboxSetupStage.code]
  rw [hheader, List.append_assoc, nextRecord_reportFailure]

/-- The two routines agree with the one reader exactly for the bare payload,
and by coincidence for the one failure whose payload equals the header. The
supervisor's `SetupFailed` message relays whatever was decoded. -/
theorem status_report_read_back_iff (path : FailureReport) (stage : SandboxSetupStage)
    (e : Word32) (script : List IoAnswer) (hs : Steady script)
    (hm : setupFailedSize ≤ moves script) :
    (∃ r left script', readStatusPipe (path.writes stage e).flatten script =
        some (r, left, script') ∧
      r = .payload (setupFailure stage e) ∧
      relayed r = some (.setupFailed (setupFailure stage e))) ↔
    path = .reportFailure ∨ stage = .namespace ∧ e = 8 := by
  have decode (f : SandboxSetupFailedPayload)
      (hf : nextRecord (path.writes stage e).flatten true = some (.payload f, setupFailedSize)) :
      ∃ left script', readStatusPipe (path.writes stage e).flatten script =
        some (.payload f, left, script') :=
    readStatusPipe_terminates hs hf (by simp) (by simp) hm
  cases path with
  | reportFailure =>
    obtain ⟨left, script', hread⟩ := decode (setupFailure stage e)
      (by simpa [FailureReport.writes] using nextRecord_reportFailure stage e [] true)
    exact ⟨fun _ => .inl rfl, fun _ => ⟨_, left, script', hread, rfl, rfl⟩⟩
  | failSetup =>
    obtain ⟨left, script', hread⟩ := decode (setupFailure .namespace 8)
      (by simpa [FailureReport.writes] using
        nextRecord_failSetup (setupFailure stage e) [] true)
    constructor
    · rintro ⟨r, _, _, hr, rfl, -⟩
      rw [hread] at hr
      simp only [Option.some.injEq, Prod.mk.injEq, StatusPipeReadResult.payload.injEq] at hr
      have hsame : setupFailure .namespace 8 = setupFailure stage e := hr.1
      simp only [setupFailure, SandboxSetupFailedPayload.mk.injEq] at hsame
      refine .inr ⟨?_, hsame.2.symm⟩
      revert hsame
      cases stage <;> simp [SandboxSetupStage.code]
    · rintro (h | ⟨rfl, rfl⟩)
      · cases h
      · exact ⟨_, left, script', hread, rfl, rfl⟩

theorem status_report_read_back_iff_bare :
    ∃ r left script', readStatusPipe (FailureReport.reportFailure.writes .exec 2).flatten
        (List.replicate 8 (.count 0)) = some (r, left, script') ∧
      r = .payload (setupFailure .exec 2) ∧
      relayed r = some (.setupFailed (setupFailure .exec 2)) :=
  (status_report_read_back_iff .reportFailure .exec 2 (List.replicate 8 (.count 0))
    (by simp [Steady]) (by decide)).2 (.inl rfl)

/-- A failed mount of the executable (`Filesystem`, `ENOENT`) is read back as a
failure of stage `Namespace` with error 8. -/
theorem mount_failure_garbled :
    ¬ ∀ (path : FailureReport) (stage : SandboxSetupStage) (e : Word32) (script : List IoAnswer),
      Steady script → setupFailedSize ≤ moves script →
      ∃ r left script', readStatusPipe (path.writes stage e).flatten script =
          some (r, left, script') ∧
        r = .payload (setupFailure stage e) ∧
        relayed r = some (.setupFailed (setupFailure stage e)) := by
  intro h
  obtain ⟨r, left, script', hr, hp, -⟩ := h .failSetup .filesystem 2
    (List.replicate 8 (.count 0)) (by simp [Steady]) (by decide)
  have : readStatusPipe (FailureReport.failSetup.writes .filesystem 2).flatten
      (List.replicate 8 (.count 0)) = some (.payload (setupFailure .namespace 8),
        (setupFailure .filesystem 2).bytes, []) := by decide
  rw [this] at hr
  cases hr
  revert hp
  decide

end OnlineJudge
