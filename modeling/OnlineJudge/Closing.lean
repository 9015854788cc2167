import OnlineJudge.Descriptors

/-!
# What each call closes

The open flags of the runner tell which of its descriptors are open, at every
call: what a call closes is open before it, and what the flags then say is so.
-/

namespace OnlineJudge

open Descriptor

variable {w w' : World} {x : Answer}

/-! ## Flags and descriptors -/

/-- The first message was `Ready`. -/
def Runner.started (r : Runner) : Bool :=
  r.decoded.head?.any fun m => m.1 = SandboxMessageType.ready.code

/-- Open in the runner, once the supervisor is forked. -/
def Descriptor.isOpen (r : Runner) : Descriptor → Bool
  | control0 => r.control_open
  | control1 => false
  | stdin1 => r.stdin_open
  | stdout0 => r.stdout_open
  | stderr0 => r.stderr_open
  | stdin0 | stdout1 | stderr1 => !r.started

/-- The streams are open, and the control socket is or is not. -/
def Runner.Opened (control : Bool) (r : Runner) : Prop :=
  r.control_open = control ∧ r.stdin_open = true ∧ r.stdout_open = true ∧ r.stderr_open = true

def Runner.Shut (r : Runner) : Prop :=
  r.control_open = false ∧ r.stdin_open = false ∧ r.stdout_open = false ∧ r.stderr_open = false

/-- No message was received. -/
def Runner.Unheard (r : Runner) : Prop := r.decoded = [] ∧ r.submission_finished = false

/-- The flags in a cleanup routine. -/
def Runner.Cleaning (r : Runner) : Cleanup → Prop
  | .beforeReady _ => r.Opened true
  | .afterFailure _ => r.stdin_open = false

/-- The flags before each call. -/
def Flagged (r : Runner) : Prop :=
  match r.pc with
  | .setup n => r.Opened (decide (1 < n)) ∧ r.Unheard
  | .receiveHeader | .receivePayload _ => r.Opened true ∧ r.Unheard
  | .reapFailed => r.Opened false
  | .loop | .poll _ => r.control_open = !r.submission_finished
  | .writeStdin => r.control_open = !r.submission_finished ∧ r.stdin_open = true
  | .readStdout => r.control_open = !r.submission_finished ∧ r.stdout_open = true
  | .readStderr => r.control_open = !r.submission_finished ∧ r.stderr_open = true
  | .sendTerminate | .readHeader | .readSetupFailed | .readTerminated =>
    r.control_open = true ∧ r.submission_finished = false
  | .finishSetupFailed => r.control_open = false
  | .finishTerminated => r.control_open = false ∧ r.submission_finished = true
  | .cleanupTerminate _ => r.control_open = true ∧ r.stdin_open = false
  | .cleanupNoHang _ _ => r.stdin_open = false
  | .killSupervisor site | .waitSupervisor site | .openKill site | .writeKill site
  | .checkEmpty site _ | .lastCheck site | .accessCgroup site | .removeCgroup site =>
    r.Cleaning site
  | .reapSupervisor | .returned => r.Shut

/-- From one runner to the next, a close shuts what is open, and nothing else
shuts. -/
def Follows (r r' : Runner) (closed : List Descriptor) : Prop :=
  ∀ d : Descriptor, closed.count d + (d.isOpen r').toNat = (d.isOpen r).toNat

/-- A call leads to `r'` and closes these. -/
structure Closing (r r' : Runner) (closed : List Descriptor) : Prop where
  flagged : Flagged r'
  follows : Follows r r' closed

@[simp] theorem Runner.started_decode {r : Runner} {type : Word32} {payload : List Byte} :
    (r.decode type payload).started =
      (r.started || r.decoded.isEmpty && type = SandboxMessageType.ready.code) := by
  cases hd : r.decoded <;> simp [Runner.started, Runner.decode, hd]

section
variable {r r₁ r₂ : Runner} {closed more : List Descriptor} {site : Cleanup} {use : CleanupUse}

theorem Follows.refl (r : Runner) : Follows r r [] := fun d => by simp

theorem Follows.trans (h : Follows r r₁ closed) (h' : Follows r₁ r₂ more) :
    Follows r r₂ (closed ++ more) := by
  intro d
  have := h d
  have := h' d
  rw [List.count_append]
  omega

theorem follows_closeStdin : Follows r r.closeStdin (closeIf r.stdin_open stdin1) := by
  intro d
  cases d <;> cases h : r.stdin_open <;>
    simp [isOpen, Runner.closeStdin, Runner.started, closeIf, h]

theorem follows_closeControl : Follows r r.closeControl (closeIf r.control_open control0) := by
  intro d
  cases d <;> cases h : r.control_open <;>
    simp [isOpen, Runner.closeControl, Runner.started, closeIf, h]

theorem follows_closePipes : Follows r r.closePipes r.closePipesCloses := by
  intro d
  cases d <;> cases h : r.stdin_open <;> cases h' : r.stdout_open <;>
    cases h'' : r.stderr_open <;>
    simp [isOpen, Runner.closePipes, Runner.closePipesCloses, Runner.started, closeIf, h, h', h'']

theorem Closing.go {pc : RunnerPc} (h : Flagged (r.go pc)) : Closing r (r.go pc) [] :=
  ⟨h, Follows.refl r⟩

/-- What a runner notes besides the flags does not matter. -/
theorem Closing.since (h : Closing r₁ r₂ closed) (hr : ∀ d : Descriptor, d.isOpen r₁ = d.isOpen r) :
    Closing r r₂ closed :=
  ⟨h.flagged, fun d => hr d ▸ h.follows d⟩

theorem closing_cleanupAfterFailure :
    Closing r (r.cleanupAfterFailure use) r.cleanupAfterFailureCloses := by
  refine ⟨?_, follows_closeStdin⟩
  cases h : r.control_open <;>
    simp [Flagged, Runner.cleanupAfterFailure, Runner.closeStdin, Runner.go, h]

theorem flagged_cleanupReturned (h : r.Shut) : Flagged (r.cleanupReturned site) := by
  rcases site with (_ | _) | _ | _ | _ <;> exact h

theorem isOpen_cleanupReturned (d : Descriptor) :
    d.isOpen (r.cleanupReturned site) = d.isOpen r := by
  rcases site with (_ | _) | _ | _ | _ <;> cases d <;> rfl

theorem closing_endCleanup (h : r.Cleaning site) :
    Closing r (r.endCleanup site) (r.endCleanupCloses site) := by
  refine ⟨flagged_cleanupReturned ⟨rfl, rfl, rfl, rfl⟩, fun d => ?_⟩
  unfold Runner.endCleanup
  rw [isOpen_cleanupReturned]
  cases site with
  | beforeReady =>
    obtain ⟨hc, hi, ho, he⟩ := h
    cases d <;> simp [isOpen, Runner.endCleanupCloses, Runner.closePipes, Runner.closeControl,
      Runner.started, hc, hi, ho, he]
  | afterFailure =>
    have hi : r.stdin_open = false := h
    cases d <;> cases hc : r.control_open <;> cases ho : r.stdout_open <;>
      cases he : r.stderr_open <;>
      simp [isOpen, Runner.endCleanupCloses, Runner.closePipes, Runner.closeControl,
        Runner.started, closeIf, hc, hi, ho, he]

theorem closing_afterReap (h : r.stdin_open = false) :
    Closing r (r.afterReap use) (r.afterReapCloses use) := by
  unfold Runner.afterReap Runner.afterReapCloses
  split
  · exact .go h
  · exact closing_endCleanup h

theorem closing_afterContain (h : r.stdin_open = false) :
    Closing r (r.afterContain use) (r.afterContainCloses use) := by
  unfold Runner.afterContain Runner.afterContainCloses
  split
  · exact closing_afterReap h
  · exact .go h

theorem closing_contained {ok : Bool} (h : r.Cleaning site) :
    Closing r (r.contained ok site) (r.containedCloses ok site) := by
  cases site with
  | beforeReady u =>
    cases ok with
    | true => exact .go h
    | false =>
      exact (@closing_endCleanup { r with containment_failed := true } (.beforeReady u) h).since
        fun _ => rfl
  | afterFailure use =>
    cases ok with
    | true =>
      exact (closing_afterContain (r := { r with execution_contained := true }) h).since
        fun _ => rfl
    | false =>
      exact (closing_afterContain (r := { r with containment_failed := true }) h).since
        fun _ => rfl

theorem closing_cleanupWaited {ok : Bool} (h : r.Cleaning site) :
    Closing r (r.cleanupWaited ok site) (r.cleanupWaitedCloses ok site) := by
  cases site with
  | beforeReady u => exact .go h
  | afterFailure use =>
    cases ok with
    | true =>
      exact (closing_afterReap (r := { r with cleanup_reaped := true }) h).since fun _ => rfl
    | false =>
      exact (closing_afterReap (r := { r with containment_failed := true }) h).since fun _ => rfl

/-! ## The handshake -/

theorem Runner.Unheard.started (h : r.Unheard) : r.started = false := by
  simp [Runner.started, h.1]

/-- The first message decides whether the run starts. -/
theorem follows_decode {type : Word32} {payload : List Byte} (hu : r.Unheard) :
    Follows r (r.decode type payload)
      (if type = SandboxMessageType.ready.code then [stdout1, stderr1, stdin0] else []) := by
  intro d
  cases d with
  | stdin0 | stdout1 | stderr1 =>
    by_cases ht : type = SandboxMessageType.ready.code <;> simp [isOpen, hu.started, hu.1, ht]
  | _ =>
    by_cases ht : type = SandboxMessageType.ready.code <;> simp [isOpen, Runner.decode, ht]

/-- A later message does not. -/
theorem follows_decode_late {type : Word32} {payload : List Byte}
    (ht : type ≠ SandboxMessageType.ready.code) : Follows r (r.decode type payload) [] := by
  intro d
  cases d with
  | stdin0 | stdout1 | stderr1 => simp [isOpen, ht]
  | _ => simp [isOpen, Runner.decode]

theorem closing_received {header : SandboxMessageHeader} {payload : List Byte}
    (h : r.Opened true) (hu : r.Unheard) :
    Closing r (r.received header payload) (r.dispatchCloses header.type) := by
  have hdecode : Follows r (r.decode header.type payload) _ := follows_decode hu
  unfold Runner.received
  obtain ⟨hopened, hfin, hinput⟩ : (r.decode header.type payload).Opened true ∧
      (r.decode header.type payload).submission_finished = false ∧
      (r.decode header.type payload).input = r.input := ⟨h, hu.2, rfl⟩
  generalize r.decode header.type payload = r' at hdecode hopened hfin hinput ⊢
  obtain ⟨hc, hi, ho, he⟩ := hopened
  unfold Runner.dispatch Runner.dispatchCloses
  by_cases hf : header.type = SandboxMessageType.setupFailed.code
  · have hnot : SandboxMessageType.setupFailed.code ≠ SandboxMessageType.ready.code := by decide
    have hclose : Follows r' r'.closeControl [control0] := by
      simpa only [closeIf, hc, if_true] using follows_closeControl (r := r')
    rw [if_pos hf, if_pos hf]
    rw [hf, if_neg hnot] at hdecode
    exact ⟨⟨rfl, hi, ho, he⟩, hdecode.trans hclose⟩
  · rw [if_neg hf, if_neg hf]
    by_cases hr : header.type = SandboxMessageType.ready.code
    · have hstdin : Follows r' { r' with stdin_open := r'.input ≠ [] }
          (if r.input = [] then [stdin1] else []) := by
        intro d
        cases d <;> by_cases hn : r.input = [] <;> simp [isOpen, Runner.started, hinput, hn, hi]
      rw [if_pos hr, if_pos hr]
      rw [if_pos hr] at hdecode
      exact ⟨by simp [Flagged, Runner.go, hc, hfin], hdecode.trans hstdin⟩
    · rw [if_neg hr, if_neg hr]
      rw [if_neg hr] at hdecode
      exact ⟨⟨hc, hi, ho, he⟩, hdecode⟩

theorem closing_receiveFailed (h : r.Opened true) : Closing r r.receiveFailed [] := .go h

theorem closing_headerReceived {header : SandboxMessageHeader} (h : r.Opened true)
    (hu : r.Unheard) : Closing r (r.headerReceived header) (r.headerReceivedCloses header) := by
  unfold Runner.headerReceived Runner.headerReceivedCloses
  split
  · exact closing_receiveFailed h
  · split
    · exact closing_received h hu
    · exact .go ⟨h, hu⟩

/-! ## The loop -/

/-- What the flags of the loop have in common. -/
theorem closing_handleHeader {header : SandboxMessageHeader} (hc : r.control_open = true)
    (hfin : r.submission_finished = false) :
    Closing r (r.handleHeader header) (r.handleHeaderCloses header) := by
  unfold Runner.handleHeader Runner.handleHeaderCloses
  split
  · split
    · exact closing_cleanupAfterFailure
    · exact .go ⟨hc, hfin⟩
  · split
    · split
      · exact closing_cleanupAfterFailure
      · exact .go ⟨hc, hfin⟩
    · exact closing_cleanupAfterFailure

theorem closing_handleSetupFailed {payload : List Byte} :
    Closing r (r.handleSetupFailed payload) r.finishCloses := by
  have hd : Follows r (r.decode SandboxMessageType.setupFailed.code payload) [] :=
    follows_decode_late (by decide)
  have hclose := hd.trans follows_closeControl
  exact ⟨rfl, hclose⟩

theorem closing_handleTerminated {payload : List Byte} :
    Closing r (r.handleTerminated payload) r.finishCloses := by
  have hd : Follows r (r.decode SandboxMessageType.terminated.code payload) [] :=
    follows_decode_late (by decide)
  have hclose := hd.trans follows_closeControl
  exact ⟨⟨rfl, rfl⟩, hclose⟩

theorem pcAfterStdin_cases :
    r.pcAfterStdin = .readStdout ∧ r.stdout_open = true ∨
      r.pcAfterStdin = .readStderr ∧ r.stderr_open = true ∨ r.pcAfterStdin = .loop := by
  unfold Runner.pcAfterStdin Runner.pcAfterStdout
  split
  · rename_i ho
    rw [Bool.and_eq_true] at ho
    exact .inl ⟨rfl, ho.1⟩
  · split
    · rename_i he
      rw [Bool.and_eq_true] at he
      exact .inr (.inl ⟨rfl, he.1⟩)
    · exact .inr (.inr rfl)

theorem pcAfterStdout_cases :
    r.pcAfterStdout = .readStderr ∧ r.stderr_open = true ∨ r.pcAfterStdout = .loop := by
  unfold Runner.pcAfterStdout
  split
  · rename_i he
    rw [Bool.and_eq_true] at he
    exact .inl ⟨rfl, he.1⟩
  · exact .inr rfl

/-- The rest of an iteration, once the stdin branch is past. -/
theorem flagged_pcAfterStdin (hpc : r₁.pc = r.pcAfterStdin)
    (hc : r₁.control_open = !r₁.submission_finished) (ho : r₁.stdout_open = r.stdout_open)
    (he : r₁.stderr_open = r.stderr_open) : Flagged r₁ := by
  rcases pcAfterStdin_cases (r := r) with ⟨h, hopen⟩ | ⟨h, hopen⟩ | h <;> rw [h] at hpc <;>
    simp [Flagged, *]

theorem closing_afterControl (hc : r.control_open = !r.submission_finished) :
    Closing r r.afterControl r.afterControlCloses := by
  refine ⟨?_, fun d => ?_⟩
  · by_cases hw : (r.stdin_open && !r.revents.stdinHup && r.revents.stdinOut) = true
    · have hin : (r.stdin_open && !r.revents.stdinHup) = true := (Bool.and_eq_true_iff.1 hw).1
      simp only [Flagged, Runner.afterControl, hw, if_true]
      exact ⟨hc, hin⟩
    · exact flagged_pcAfterStdin (r := r) (by simp only [Runner.afterControl, if_neg hw]) hc rfl rfl
  · cases d <;> cases hi : r.stdin_open <;> cases hh : r.revents.stdinHup <;>
      simp [isOpen, Runner.afterControl, Runner.afterControlCloses, Runner.started, closeIf, hi, hh]

theorem closing_afterPoll (hc : r.control_open = !r.submission_finished) :
    Closing r r.afterPoll r.afterPollCloses := by
  unfold Runner.afterPoll Runner.afterPollCloses
  split
  · rename_i h
    rw [Bool.and_eq_true] at h
    have hfin : r.submission_finished = false := by simpa [h.1] using hc
    exact .go ⟨h.1, hfin⟩
  · exact closing_afterControl hc

theorem closing_nextIteration {now : Int} (hc : r.control_open = !r.submission_finished) :
    Closing r (r.nextIteration now) [] := by
  unfold Runner.nextIteration
  split
  · rename_i h
    simp only [Bool.and_eq_true, Bool.not_eq_true'] at h
    obtain ⟨⟨⟨hfin, hi⟩, ho⟩, he⟩ := h
    have hshut : r.Shut := ⟨by rw [hc, hfin]; rfl, hi, ho, he⟩
    split
    · exact ⟨hshut, Follows.refl r⟩
    · exact .go hshut
  · split
    · rename_i h
      simp only [Bool.and_eq_true, Bool.not_eq_true'] at h
      rw [h.1.1] at hc
      exact .go ⟨hc, h.1.1⟩
    · exact .go hc

theorem closing_deadlineSent (hc : r.control_open = true) (hfin : r.submission_finished = false) :
    Closing r r.deadlineSent (closeIf r.stdin_open stdin1) :=
  ⟨show r.control_open = !r.submission_finished by rw [hc, hfin]; rfl, follows_closeStdin⟩

/-- `finish_supervisor_terminal` closes the pipes, and the stdin branch finds
nothing to close. -/
theorem closing_finishTerminated {now : Int} (hc : r.control_open = !r.submission_finished) :
    Closing r (r.finishTerminated now) r.closePipesCloses := by
  have hafter := closing_afterControl (r := { r with
    result := (r.result.finalizeResourceUsage r.start_time now r.usage).finalizeStatus r.status
    }.closePipes) hc
  refine ⟨hafter.flagged, ?_⟩
  have hclosed := follows_closePipes.trans hafter.follows
  rw [Runner.afterControlCloses, Runner.closePipes, Bool.false_and, closeIf,
    if_neg Bool.false_ne_true, List.append_nil] at hclosed
  exact hclosed

/-- An output stream at its end is closed. -/
theorem closing_gotStdout {bytes : List Byte} (hc : r.control_open = !r.submission_finished)
    (ho : r.stdout_open = true) :
    Closing r (r.gotStdout bytes) (closeIf (bytes = []) stdout0) := by
  refine ⟨?_, fun d => ?_⟩
  · rcases pcAfterStdout_cases (r := r) with ⟨h, hopen⟩ | h <;>
      simp [Flagged, Runner.gotStdout, *]
  · cases d <;> by_cases hb : bytes = [] <;>
      simp [isOpen, Runner.gotStdout, Runner.started, closeIf, ho, hb]

theorem closing_gotStderr {bytes : List Byte} (hc : r.control_open = !r.submission_finished)
    (he : r.stderr_open = true) :
    Closing r (r.gotStderr bytes) (closeIf (bytes = []) stderr0) := by
  refine ⟨hc, fun d => ?_⟩
  cases d <;> by_cases hb : bytes = [] <;>
    simp [isOpen, Runner.gotStderr, Runner.started, closeIf, he, hb]

theorem closing_wroteStdin {n : Nat} (hc : r.control_open = !r.submission_finished)
    (hi : r.stdin_open = true) :
    Closing r (r.wroteStdin n) (r.advanceInputCloses (r.input_offset + n)) := by
  refine ⟨flagged_pcAfterStdin (r := r) rfl hc rfl rfl, fun d => ?_⟩
  unfold Runner.advanceInputCloses
  cases d <;> by_cases hn : r.input_offset + n = r.input.length <;>
    simp [isOpen, Runner.wroteStdin, Runner.advanceInput, Runner.go, Runner.started, hi, hn]

/-- After `EPIPE` the offset is one less, or the greatest of its type, and never
at the end of the input. -/
theorem closing_brokenStdin (hc : r.control_open = !r.submission_finished)
    (hi : r.stdin_open = true) (hoffset : r.input_offset ≤ r.input.length)
    (hsize : r.input.length < 2 ^ 63) : Closing r r.brokenStdin r.brokenStdinCloses := by
  have hnot : sizeT (r.input_offset + -1) ≠ r.input.length := by
    unfold sizeT
    omega
  refine ⟨flagged_pcAfterStdin (r := r) rfl hc rfl rfl, fun d => ?_⟩
  unfold Runner.brokenStdinCloses Runner.advanceInputCloses
  rw [if_neg hnot]
  cases d <;> simp [isOpen, Runner.brokenStdin, Runner.advanceInput, Runner.closeStdin, Runner.go,
    Runner.started, hi]

end

/-! ## The calls -/

section
variable {size : Nat} {yes : List Byte → Runner} {no r : Runner}
  {closed : List Byte → List Descriptor} {more closed' : List Descriptor}

/-- An interrupted call is made again. -/
theorem closing_retry {e : Errno} (hf : Flagged w.runner) (hno : Closing w.runner no more)
    (h : (if e = EINTR then some w else some { w with runner := no }) = some w') :
    Closing w.runner w'.runner (if e = EINTR then [] else more) := by
  split at h <;> rename_i he <;> cases h
  · rw [if_pos he]
    exact ⟨hf, Follows.refl _⟩
  · rw [if_neg he]
    exact hno

theorem closing_read (hf : Flagged w.runner)
    (hyes : ∀ bytes, Closing w.runner (yes bytes) (closed bytes))
    (hno : Closing w.runner no more) (h : Runner.readControl w size yes no x = some w') :
    Closing w.runner w'.runner (Runner.readCloses w size closed more x) := by
  cases x <;> simp only [Runner.readControl, reduceCtorEq] at h
  · unfold Runner.readCloses
    split at h
    · rename_i hlen
      cases h
      rw [if_pos hlen]
      exact hyes _
    · rename_i hlen
      split at h <;> cases h
      rw [if_neg hlen]
      exact hno
  · exact closing_retry hf hno h

theorem closing_send (hf : Flagged w.runner) (hyes : Closing w.runner r closed')
    (hno : Closing w.runner no more) (h : Runner.sendTerminate w r no x = some w') :
    Closing w.runner w'.runner (Runner.sendCloses w closed' more x) := by
  cases x <;> simp only [Runner.sendTerminate, reduceCtorEq] at h
  · unfold Runner.sendCloses
    split at h <;> rename_i hpeer <;> cases h
    · rw [if_pos hpeer]
      exact hyes
    · rw [if_neg hpeer]
      exact hno
  · exact closing_retry hf hno h

theorem closing_wait (hf : Flagged w.runner) (hyes : Closing w.runner r closed')
    (hno : Closing w.runner no more) (h : Runner.waitSupervisor w r no x = some w') :
    Closing w.runner w'.runner (Runner.waitCloses w closed' more x) := by
  cases x <;> simp only [Runner.waitSupervisor, reduceCtorEq] at h
  · unfold Runner.waitCloses
    split at h
    · split at h <;> rename_i hreaped <;> cases h
      · rw [if_pos hreaped]
        exact hno
      · rw [if_neg hreaped]
        exact hyes
    · cases h
  · exact closing_retry hf hno h

end

theorem closing_closePipes {r r' : Runner} (hc : r.control_open = false)
    (h : r' = r.closePipes.sandboxFailed ∨ r' = r.closePipes.runnerFailed ∨
      ∃ status, r' = r.closePipes.giveStatus status) : Closing r r' r.closePipesCloses := by
  rcases h with rfl | rfl | ⟨status, rfl⟩ <;> exact ⟨⟨hc, rfl, rfl, rfl⟩, follows_closePipes⟩

/-- After the fork. -/
theorem closing_step (hf : Flagged w.runner)
    (hoffset : w.runner.stdin_open = true → w.runner.input_offset ≤ w.runner.input.length)
    (hsize : w.runner.input.length < 2 ^ 63) (hn : ∀ n, w.runner.pc ≠ .setup n)
    (h : Runner.step w x = some w') : Closing w.runner w'.runner (Runner.closes w x) := by
  have hcall := hf
  unfold Runner.step at h
  unfold Runner.closes
  cases hpc : w.runner.pc with
  | setup n => exact absurd hpc (hn n)
  | receiveHeader =>
    simp only [hpc, Flagged] at h hcall ⊢
    exact closing_read hf (fun bytes => closing_headerReceived hcall.1 hcall.2)
      (closing_receiveFailed hcall.1) h
  | receivePayload header =>
    simp only [hpc, Flagged] at h hcall ⊢
    exact closing_read hf (fun bytes => closing_received hcall.1 hcall.2)
      (closing_receiveFailed hcall.1) h
  | reapFailed =>
    simp only [hpc, Flagged] at h hcall ⊢
    have hclose := closing_closePipes hcall.1 (.inl rfl)
    simp only [Runner.closePipesCloses, hcall.2.1, hcall.2.2.1, hcall.2.2.2, closeIf,
      if_true] at hclose
    exact closing_wait hf hclose hclose h
  | sendTerminate =>
    simp only [hpc, Flagged] at h hcall ⊢
    exact closing_send hf (closing_deadlineSent hcall.1 hcall.2) closing_cleanupAfterFailure h
  | readHeader =>
    simp only [hpc, Flagged] at h hcall ⊢
    exact closing_read hf (fun bytes => closing_handleHeader hcall.1 hcall.2)
      closing_cleanupAfterFailure h
  | readSetupFailed =>
    simp only [hpc, Flagged] at h hcall ⊢
    exact closing_read hf (fun bytes => closing_handleSetupFailed) closing_cleanupAfterFailure h
  | readTerminated =>
    simp only [hpc, Flagged] at h hcall ⊢
    exact closing_read hf (fun bytes => closing_handleTerminated) closing_cleanupAfterFailure h
  | finishSetupFailed =>
    simp only [hpc, Flagged] at h hcall ⊢
    have hclose := closing_closePipes hcall (.inr (.inr ⟨.sandboxFailure, rfl⟩))
    refine closing_wait hf ?_ hclose h
    exact ⟨hclose.flagged, hclose.follows⟩
  | finishTerminated =>
    simp only [hpc, Flagged] at h hcall ⊢
    have hc : w.runner.control_open = !w.runner.submission_finished := by rw [hcall.1, hcall.2]; rfl
    have hfinish : Closing w.runner.reaped (w.runner.reaped.finishTerminated w.clock) _ :=
      closing_finishTerminated hc
    exact closing_wait hf ⟨hfinish.flagged, hfinish.follows⟩
      (closing_closePipes hcall.1 (.inr (.inl rfl))) h
  | reapSupervisor =>
    simp only [hpc, Flagged] at h hcall ⊢
    refine closing_wait hf ?_ closing_cleanupAfterFailure h
    exact ⟨hcall, Follows.refl _⟩
  | cleanupTerminate use =>
    simp only [hpc, Flagged] at h hcall ⊢
    have hclose := follows_closeControl (r := w.runner)
    rw [hcall.1, closeIf, if_pos rfl] at hclose
    refine closing_send hf ?_ ?_ h
    · exact ⟨hcall.2, Follows.refl _⟩
    · exact ⟨hcall.2, hclose⟩
  | waitSupervisor site =>
    simp only [hpc, Flagged] at h hcall ⊢
    exact closing_wait hf (closing_cleanupWaited hcall) (closing_cleanupWaited hcall) h
  | loop =>
    simp only [hpc, Flagged] at h hcall ⊢
    cases x <;> simp only [Runner.loopHead, reduceCtorEq] at h
    cases h
    exact closing_nextIteration hcall
  | poll timeout =>
    simp only [hpc, Flagged] at h hcall ⊢
    cases x <;> simp only [Runner.poll, reduceCtorEq] at h
    · exact closing_retry hf closing_cleanupAfterFailure h
    · rename_i revents
      split at h <;> cases h
      exact (closing_afterPoll (r := { w.runner with revents }) hcall).since fun _ => rfl
  | writeStdin =>
    simp only [hpc, Flagged] at h hcall ⊢
    cases x <;> simp only [Runner.writeStdin, reduceCtorEq] at h
    · rename_i e
      by_cases he : e = EPIPE
      · subst he
        exact closing_retry hf
          (closing_brokenStdin hcall.1 hcall.2 (hoffset hcall.2) hsize) h
      · simp only [if_neg he] at h ⊢
        exact closing_retry hf closing_cleanupAfterFailure h
    · split at h <;> rename_i ha
      · cases h
        simp only [ha, if_true]
        exact closing_brokenStdin hcall.1 hcall.2 (hoffset hcall.2) hsize
      · split at h <;> cases h
        simp only [ha, Bool.false_eq_true, if_false]
        exact closing_wroteStdin hcall.1 hcall.2
  | readStdout =>
    simp only [hpc, Flagged] at h hcall ⊢
    cases x <;> simp only [Runner.readStdout, reduceCtorEq] at h
    · exact closing_retry hf closing_cleanupAfterFailure h
    · split at h <;> cases h
      exact closing_gotStdout hcall.1 hcall.2
  | readStderr =>
    simp only [hpc, Flagged] at h hcall ⊢
    cases x <;> simp only [Runner.readStderr, reduceCtorEq] at h
    · exact closing_retry hf closing_cleanupAfterFailure h
    · split at h <;> cases h
      exact closing_gotStderr hcall.1 hcall.2
  | cleanupNoHang use tries =>
    simp only [hpc, Flagged] at h hcall ⊢
    cases x <;> simp only [Runner.cleanupNoHang, reduceCtorEq] at h
    · split at h
      · split at h <;> cases h
        · exact .go hcall
        · exact ⟨hcall, Follows.refl _⟩
      · cases h
        refine .go ?_
        split <;> exact hcall
    · split at h <;> cases h
      · exact ⟨hf, Follows.refl _⟩
      · exact .go hcall
  | killSupervisor site =>
    simp only [hpc, Flagged] at h hcall ⊢
    cases x <;> simp only [Runner.killSupervisor, reduceCtorEq] at h <;> cases h <;> exact .go hcall
  | openKill site =>
    simp only [hpc, Flagged] at h hcall ⊢
    cases x <;> simp only [Runner.openKill, reduceCtorEq] at h
    · cases h
      refine .go ?_
      split <;> exact hcall
    · split at h <;> rename_i he <;> cases h <;> simp only [Answer.failsWith, he]
      · exact .go hcall
      · exact closing_contained hcall
  | writeKill site =>
    simp only [hpc, Flagged] at h hcall ⊢
    cases x <;> simp only [Runner.writeKill, reduceCtorEq] at h
    · split at h <;> rename_i hp <;> cases h <;> simp only [Answer.failsWith, hp]
      · exact .go hcall
      · exact closing_contained hcall
    · split at h <;> rename_i he
      · cases h
        simp only [Answer.failsWith, he]
        exact ⟨hf, Follows.refl _⟩
      · split at h <;> rename_i hperm <;> cases h <;> simp only [Answer.failsWith, he, hperm]
        · exact .go hcall
        · exact closing_contained hcall
  | checkEmpty site tries =>
    simp only [hpc, Flagged, Runner.checkEmpty, Option.map_eq_some_iff] at h hcall ⊢
    obtain ⟨isEmpty, -, rfl⟩ := h
    refine .go ?_
    split <;> exact hcall
  | lastCheck site =>
    simp only [hpc, Flagged, Runner.lastCheck, Option.map_eq_some_iff] at h hcall ⊢
    obtain ⟨isEmpty, hempty, rfl⟩ := h
    rw [hempty]
    exact closing_contained hcall
  | accessCgroup site =>
    simp only [hpc, Flagged] at h hcall ⊢
    cases x <;> simp only [Runner.accessCgroup, reduceCtorEq] at h <;> cases h
    · cases hp : w.cgroup.present
      · exact closing_endCleanup hcall
      · exact .go hcall
    · exact closing_endCleanup hcall
  | removeCgroup site =>
    simp only [hpc, Flagged] at h hcall ⊢
    cases x <;> simp only [Runner.removeCgroup, reduceCtorEq] at h
    · split at h <;> cases h
      exact closing_endCleanup hcall
    · cases h
      split
      · exact closing_endCleanup hcall
      · exact (closing_endCleanup (r := { w.runner with containment_failed := true }) hcall).since
          fun _ => rfl
  | returned => simp [hpc] at h

end OnlineJudge
