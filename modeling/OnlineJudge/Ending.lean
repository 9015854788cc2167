import OnlineJudge.Lineage

/-!
# The reported end

Child A tells twice how the submission ended, with a record on the status pipe
and with its own end. Whichever of the two the supervisor takes, `Terminated`
carries the end of Child B.
-/

namespace OnlineJudge

variable {q : Request} {acts : List Act} {w w' : World} {x : Answer} {a : Act}

/-! ## One end, two wait statuses -/

/-- The same exit code, or the same terminating signal. -/
structure SameEnd (s t : Word32) : Prop where
  exited : WIFEXITED s = WIFEXITED t
  code : WIFEXITED t = true → WEXITSTATUS s = WEXITSTATUS t
  signaled : WIFSIGNALED s = WIFSIGNALED t
  signal : WIFSIGNALED t = true → WTERMSIG s = WTERMSIG t

theorem SameEnd.refl (s : Word32) : SameEnd s s := ⟨rfl, fun _ => rfl, rfl, fun _ => rfl⟩

/-- `finalize_status` cannot tell them apart. -/
theorem SameEnd.finalizeStatus {s t : Word32} (h : SameEnd s t) (result : ExecutionResult) :
    result.finalizeStatus s = result.finalizeStatus t := by
  unfold ExecutionResult.finalizeStatus
  rw [h.exited, h.signaled]
  split
  · rename_i he
    rw [h.code he]
  · split
    · rename_i hs
      rw [h.signal hs]
    · rfl

theorem sameEnd_exitStatus {s : Word32} (h : WIFEXITED s = true) :
    SameEnd (exitStatus (WEXITSTATUS s)) s := by
  have hterm : WTERMSIG (exitStatus (WEXITSTATUS s)) = 0 := by
    simp only [WTERMSIG, exitStatus, BitVec.toNat_ofNat]
    omega
  have hexited : WIFEXITED (exitStatus (WEXITSTATUS s)) = true := by simp [WIFEXITED, hterm]
  refine ⟨by rw [h, hexited], fun _ => ?_, ?_, fun hs => ?_⟩
  · simp only [WEXITSTATUS, exitStatus, BitVec.toNat_ofNat]
    omega
  · rw [not_signaled_of_exited h, not_signaled_of_exited hexited]
  · rw [not_signaled_of_exited h] at hs
    cases hs

theorem sameEnd_signalStatus {s : Word32} (h : WIFSIGNALED s = true) :
    SameEnd (signalStatus (WTERMSIG s)) s := by
  have hterm : WTERMSIG (signalStatus (WTERMSIG s)) = WTERMSIG s := by
    simp only [WTERMSIG, signalStatus, BitVec.toNat_ofNat]
    omega
  have hexited : WIFEXITED s = false := by
    cases he : WIFEXITED s with
    | false => rfl
    | true => rw [not_signaled_of_exited he] at h; cases h
  refine ⟨?_, fun he => ?_, ?_, fun _ => hterm⟩
  · rw [WIFEXITED, WIFEXITED, hterm]
  · rw [hexited] at he
    cases he
  · rw [WIFSIGNALED, WIFSIGNALED, hterm]

/-- A child that exits or raises as Child B did ends as Child B did. -/
theorem sameEnd_mirror {b_status : Word32}
    (h : WIFEXITED b_status = true ∨ WIFSIGNALED b_status = true) :
    SameEnd (ChildA.mirror b_status) b_status := by
  unfold ChildA.mirror
  split
  · rename_i he
    exact sameEnd_exitStatus he
  · rename_i he
    rw [if_pos (h.resolve_left he)]
    exact sameEnd_signalStatus (h.resolve_left he)

/-! ## The record -/

/-- The record that Child A forwards. -/
def waitRecord (b_status : Word32) : List Byte := tag :: b_status.bytes

/-- Of the bytes of the record, however many have arrived, nothing else is ever
made. -/
theorem nextRecord_waitRecord {b_status : Word32} {pending : List Byte} {closed : Bool}
    {r : StatusPipeReadResult} {n : Nat} (h : pending <+: waitRecord b_status)
    (hr : nextRecord pending closed = some (r, n)) :
    r = .eof ∧ n = 0 ∨ r = .error ∨
      r = .waitStatus b_status ∧ n = 5 ∧ pending = waitRecord b_status := by
  cases pending with
  | nil =>
    simp only [nextRecord] at hr
    split at hr <;> cases hr
    exact .inl ⟨rfl, rfl⟩
  | cons first rest =>
    obtain ⟨rfl, hrest⟩ := List.cons_prefix_cons.1 h
    simp only [nextRecord, if_true] at hr
    split at hr
    · rename_i hlen
      have hle : b_status.bytes.length ≤ rest.length := by simpa using hlen
      have hall : rest = b_status.bytes := hrest.eq_of_length_le hle
      cases hr
      refine .inr (.inr ⟨?_, rfl, by rw [hall]; rfl⟩)
      rw [hall, List.take_of_length_le (by simp), Word32.ofBytes_bytes]
    · split at hr <;> cases hr
      exact .inr (.inl rfl)

/-! ## Who kills Child A -/

/-- A setup call fails. -/
def setupFails (w : World) : Act → Bool
  | .childA (.fail _) =>
    match w.childA with
    | .setup _ _ | .fork => true
    | _ => false
  | .childB (.fail _) =>
    match w.childB with
    | .setup _ _ => true
    | _ => false
  | _ => false

/-- The runner does not ask for a termination, but kills the cgroup itself. -/
def runnerKills (w : World) : Act → Bool
  | .runner .ok =>
    match w.runner.pc with
    | .writeKill _ => true
    | _ => false
  | _ => false

/-- The supervisor kills Child A on request, or when it gives up. -/
structure Asked (w : World) : Prop where
  killed : w.killed.childA = true → w.toSup.sent ≠ [] ∨ w.sup.pc.phase = .over
  killing : w.sup.pc = .openKill .loop ∨ w.sup.pc = .writeKill .loop → w.toSup.sent ≠ []

namespace Asked

theorem supervisor (h : Asked w) (hm : Supervisor.Move w x w') : Asked w' := by
  obtain ⟨hkilled, hkilling⟩ := h
  cases hm with
  | gotControl hpc hlen =>
    have hsent : w.toSup.sent ≠ [] := by
      intro hs
      have := (List.append_eq_nil_iff.1 hs).2
      simp [this, headerSize] at hlen
    exact ⟨fun _ => .inl (by simpa using hsent), fun _ => by simpa using hsent⟩
  | @gotStatus r => cases r <;> constructor <;> grind -linarith
  | waitedA site | waitAFailed site => cases site <;> constructor <;> grind -linarith
  | @sent caller | @sendFailed _ caller | @openedKill caller | @killWritten caller
  | @killDenied _ caller | @killFailed _ caller | @removed caller | @removeBusy caller
  | @removeDenied caller | @removeFailed caller =>
    cases caller <;> constructor <;> grind -linarith
  | _ => constructor <;> grind -linarith

theorem runner (h : Asked w) (hl : Lineage w) (hk : runnerKills w (.runner x) = false)
    (hm : Runner.Move w x w') : Asked w' := by
  obtain ⟨hkilled, hkilling⟩ := h
  have hsup := hm.sup
  have hsent : w.toSup.sent ≠ [] → w'.toSup.sent ≠ [] := by cases hm <;> simp_all [World.killCgroup]
  have hkill : w'.killed.childA = w.killed.childA := by
    cases hm with
    | killWritten hpc => simp [runnerKills, hpc] at hk
    | _ => rfl
  rcases hsup with hs | ⟨⟨n, hpc⟩, -, hs⟩
  · rw [← hs] at hkilled hkilling
    exact ⟨fun hk => (hkilled (hkill ▸ hk)).imp_left hsent, fun hpc => hsent (hkilling hpc)⟩
  · have hunborn := hl.unforked ⟨n, hpc⟩
    refine ⟨fun hk => .inl (hsent ?_), fun hk => by simp [hs, Supervisor.go] at hk⟩
    exact (hkilled (hkill ▸ hk)).resolve_right (by simp [hunborn, SupervisorPc.phase])

theorem keep (h : Asked w) (hl : Lineage w) (hk : runnerKills w a = false) (hm : Move w a w') :
    Asked w' := by
  have hquiet (hkilled : w'.killed = w.killed) (hsent : w'.toSup = w.toSup)
      (hsup : w'.sup.pc = w.sup.pc ∨ ∃ s, w'.sup.pc = .exited s) : Asked w' := by
    obtain ⟨hk, hpc⟩ := h
    rw [← hkilled, ← hsent] at hk
    rw [← hsent] at hpc
    rcases hsup with hs | ⟨s, hs⟩
    · rw [← hs] at hk hpc
      exact ⟨hk, hpc⟩
    · exact ⟨fun _ => .inr (by rw [hs]; rfl), by simp [hs]⟩
  cases hm with
  | runner hm => exact h.runner hl hk hm
  | supervisor hm => exact h.supervisor hm
  | childA hm => exact hquiet hm.killed hm.toSup (.inl (by rw [hm.sup]))
  | childB hm => exact hquiet hm.killed hm.toSup (.inl (by rw [hm.sup]))
  | diedSupervisor => exact hquiet rfl rfl (.inr ⟨_, rfl⟩)
  | _ => exact hquiet rfl rfl (.inl rfl)

theorem init (q : Request) : Asked (.init q) := ⟨nofun, by simp [World.init]⟩

end Asked

/-! ## What is written and what is read -/

/-- What a run without a setup failure keeps of the record and of the end of
Child A. -/
structure Recorded (w : World) : Prop where
  silentA : ∀ onControl writes, w.childA ≠ .report onControl writes
  silentB : ∀ writes, w.childB ≠ .report writes
  unwritten : w.childA.beforeFork = true ∨ w.childA = .waitB → w.statusPipe.sent = []
  written : w.statusPipe.sent ≠ [] →
    ∃ b_status, w.childB = .exited b_status ∧ w.statusPipe.sent <+: waitRecord b_status
  forward : ∀ b_status writes, w.childA = .forward b_status writes →
    w.childB = .exited b_status ∧ w.statusPipe.sent ++ writes.flatten = waitRecord b_status
  leave : ∀ b_status, w.childA = .closeStatus b_status ∨ w.childA = .leave b_status →
    w.childB = .exited b_status
  left : ∀ raw_status, w.childA = .exited raw_status → w.killed.childA = true ∨
    w.childB = .unborn ∨
      ∃ b_status, w.childB = .exited b_status ∧ raw_status = ChildA.mirror b_status

/-- The status that the supervisor would report. -/
def Supervisor.reported (s : Supervisor) : Word32 :=
  if s.has_forwarded_status then s.forwarded_child_status else s.status

/-- A status that Child A or its record gave. -/
def Witnessed (w : World) (status : Word32) : Prop :=
  ∃ raw_status, w.childA = .exited raw_status ∧
    (status = raw_status ∨ w.childB = .exited status)

/-- What the supervisor makes of it. -/
structure Reported (w : World) : Prop where
  reading : w.sup.pc.phase ≠ .over → w.statusPipe.taken = [] ∨ w.statusPipe.taken.length = 5
  forwarded : w.sup.has_forwarded_status = true →
    w.childB = .exited w.sup.forwarded_child_status
  reaped : ∀ retries, w.sup.pc = .removeCgroup .finished retries → Witnessed w w.sup.reported
  sending : ∀ writes, w.sup.pc = .send .terminated writes →
    ∃ p : SandboxTerminatedPayload, (writes = (Message.terminated p).writes ∨ writes = [p.bytes]) ∧
      Witnessed w p.wait_status

attribute [grind =] Supervisor.reported

/-- The supervisor only reads the status pipe. -/
theorem Supervisor.Move.statusPipe_sent (hm : Supervisor.Move w x w') :
    w'.statusPipe.sent = w.statusPipe.sent := by
  cases hm with
  | gotStatus => exact Channel.sent_take _ _
  | waitedA site | waitAFailed site => cases site <;> rfl
  | _ => rfl

namespace Recorded

theorem childA (h : Recorded w) (hl : Lineage w) (hf : setupFails w (.childA x) = false)
    (hm : ChildA.Move w x w') : Recorded w' := by
  obtain ⟨hsA, hsB, hun, hwr, hfwd, hlv, hleft⟩ := h
  have hunborn := hl.unbornB
  clear hl
  cases hm with
  | again => exact ⟨hsA, hsB, hun, hwr, hfwd, hlv, hleft⟩
  | released hpc => constructor <;> grind -linarith [childASetup, ChildA.next]
  | @setupDone _ rest hpc =>
    have := ChildA.next_cases rest
    constructor <;> grind -linarith
  | setupFailed hpc | forkFailed hpc => simp [setupFails, hpc] at hf
  | toldControl hpc | toldStatus hpc | reportLost hpc => exact absurd hpc (hsA _ _)
  | forked hpc =>
    have hempty := hun (.inl (by simp [hpc, ChildA.beforeFork]))
    have := ChildB.next_cases childBSetup
    constructor <;> grind -linarith
  | waited hpc hb =>
    have hempty := hun (.inr hpc)
    constructor <;> grind -linarith [waitRecord]
  | @forwarded b_status chunk rest hpc =>
    obtain ⟨hb, hbytes⟩ := hfwd _ _ hpc
    have hflat : (w.statusPipe.put chunk).sent ++ rest.flatten = waitRecord b_status := by
      simpa using hbytes
    constructor <;> grind -linarith [List.prefix_append]
  | forwardLost hpc =>
    have := hfwd _ _ hpc
    constructor <;> grind -linarith
  | _ => constructor <;> grind -linarith

theorem childB (h : Recorded w) (hf : setupFails w (.childB x) = false)
    (hm : ChildB.Move w x w') : Recorded w' := by
  obtain ⟨hsA, hsB, hun, hwr, hfwd, hlv, hleft⟩ := h
  cases hm with
  | again => exact ⟨hsA, hsB, hun, hwr, hfwd, hlv, hleft⟩
  | @setupDone _ rest hpc =>
    have := ChildB.next_cases rest
    constructor <;> grind -linarith
  | setupFailed hpc => simp [setupFails, hpc] at hf
  | told hpc | reportLost hpc => exact absurd hpc (hsB _)

theorem quiet (h : Recorded w) (hA : w'.childA = w.childA) (hB : w'.childB = w.childB)
    (hsent : w'.statusPipe.sent = w.statusPipe.sent)
    (hkilled : w.killed.childA = true → w'.killed.childA = true) : Recorded w' := by
  obtain ⟨hsA, hsB, hun, hwr, hfwd, hlv, hleft⟩ := h
  rw [← hA] at hsA hun hfwd hlv hleft
  rw [← hB] at hsB hwr hfwd hlv hleft
  rw [← hsent] at hun hwr hfwd
  exact ⟨hsA, hsB, hun, hwr, hfwd, hlv, fun s hs => (hleft s hs).imp_left hkilled⟩

theorem supervisor (h : Recorded w) (hl : Lineage w) (hm : Supervisor.Move w x w') :
    Recorded w' := by
  have hsent := hm.statusPipe_sent
  rcases hm.phases with ⟨-, hA, -, -⟩ | ⟨hbefore, -, hA, -, -⟩ | ⟨-, -, hA, -⟩ | ⟨-, hA, -, -⟩
  · exact h.quiet hA hm.childB hsent hm.killed_mono
  · have hunborn := hl.unborn hbefore
    have hempty := h.unwritten (.inl (by simp [hunborn, ChildA.beforeFork]))
    have hB := hm.childB
    have hsB := h.silentB
    constructor <;> grind -linarith
  · exact h.quiet hA hm.childB hsent hm.killed_mono
  · exact h.quiet hA hm.childB hsent hm.killed_mono

theorem keep (h : Recorded w) (hl : Lineage w) (hf : setupFails w a = false) (hm : Move w a w') :
    Recorded w' := by
  cases hm with
  | runner hm =>
    exact h.quiet hm.childA hm.childB (by rw [hm.statusPipe]) hm.killed_mono.1
  | supervisor hm => exact h.supervisor hl hm
  | childA hm => exact h.childA hl hf hm
  | childB hm => exact h.childB hf hm
  | finished hpc | diedB =>
    obtain ⟨hsA, hsB, hun, hwr, hfwd, hlv, hleft⟩ := h
    have hwaited := hl.waitedB
    constructor <;> grind -linarith
  | diedA hk =>
    exact ⟨by rintro _ _ ⟨⟩, h.silentB, by simp [ChildA.beforeFork], h.written,
      by rintro _ _ ⟨⟩, by simp, fun _ _ => .inl hk⟩
  | _ => exact h.quiet rfl rfl rfl id

theorem init (q : Request) : Recorded (.init q) := by
  constructor <;> simp [World.init]

end Recorded

/-! ## Ends are final -/

theorem Move.exitedA {s : Word32} (hl : Lineage w) (hm : Move w a w')
    (h : w.childA = .exited s) : w'.childA = .exited s := by
  cases hm with
  | runner hm => rw [hm.childA, h]
  | supervisor hm =>
    rcases hm.phases with ⟨-, hA, -, -⟩ | ⟨hbefore, -, -, -, -⟩ | ⟨-, -, hA, -⟩ | ⟨-, hA, -, -⟩
    · rw [hA, h]
    · simp [hl.unborn hbefore] at h
    · rw [hA, h]
    · rw [hA, h]
  | childA hm => cases hm <;> simp_all
  | childB hm => rw [hm.childA, h]
  | diedA _ ha => simp [ChildA.alive, h] at ha
  | _ => exact h

theorem Move.exitedB {s : Word32} (hl : Lineage w) (hm : Move w a w')
    (h : w.childB = .exited s) : w'.childB = .exited s := by
  cases hm with
  | runner hm => rw [hm.childB, h]
  | supervisor hm => rw [hm.childB, h]
  | childA hm =>
    cases hm with
    | forked hpc => simp [hl.unbornB (by simp [hpc, ChildA.beforeFork])] at h
    | _ => exact h
  | childB hm => cases hm <;> simp_all
  | finished hpc => simp [hpc] at h
  | diedB _ ha => simp [ChildB.alive, h] at ha
  | _ => exact h

theorem Witnessed.keep {status : Word32} (h : Witnessed w status) (hl : Lineage w)
    (hm : Move w a w') : Witnessed w' status := by
  obtain ⟨raw_status, hA, hstatus⟩ := h
  exact ⟨raw_status, hm.exitedA hl hA, hstatus.imp_right (hm.exitedB hl)⟩

theorem writes_terminated (p : SandboxTerminatedPayload) :
    (Message.terminated p).writes = [(Message.terminated p).header.bytes, p.bytes] := by
  have hne : p.bytes ≠ [] := List.ne_nil_of_length_pos (by simp [terminatedSize])
  simp [Message.writes, Message.terminated, hne]

namespace Reported

/-- A step that leaves the supervisor where it is, or ends it. -/
theorem quiet (h : Reported w) (hl : Lineage w) (hm : Move w a w')
    (hsup : w'.sup = w.sup ∨ ∃ s, w'.sup = w.sup.go (.exited s))
    (htaken : w'.statusPipe.taken = w.statusPipe.taken) : Reported w' := by
  obtain ⟨hreading, hforwarded, hreaped, hsending⟩ := h
  rw [← htaken] at hreading
  rcases hsup with hs | ⟨s, hs⟩
  · rw [← hs] at hreading hforwarded hreaped hsending
    refine ⟨hreading, fun hf => hm.exitedB hl (hforwarded hf), fun retries hpc =>
      (hreaped retries hpc).keep hl hm, fun writes hpc => ?_⟩
    obtain ⟨p, hwrites, hp⟩ := hsending writes hpc
    exact ⟨p, hwrites, hp.keep hl hm⟩
  · refine ⟨fun hpc => ?_, fun hf => hm.exitedB hl ?_, fun _ hpc => ?_, fun _ hpc => ?_⟩
    · simp [hs, Supervisor.go, SupervisorPc.phase] at hpc
    · rw [hs] at hf ⊢
      exact hforwarded hf
    · simp [hs, Supervisor.go] at hpc
    · simp [hs, Supervisor.go] at hpc

/-- What waits in the pipe is the record, or nothing. -/
theorem waiting (h : Reported w) (hr : Recorded w) (hphase : w.sup.pc.phase ≠ .over) :
    ∃ b_status, w.statusPipe.pending <+: waitRecord b_status ∧
      (w.statusPipe.pending ≠ [] → w.statusPipe.taken = [] ∧ w.childB = .exited b_status) := by
  have hsent : w.statusPipe.sent = w.statusPipe.taken ++ w.statusPipe.pending := rfl
  by_cases hempty : w.statusPipe.pending = []
  · exact ⟨0, hempty ▸ List.nil_prefix, fun hne => absurd hempty hne⟩
  · obtain ⟨b_status, hB, hprefix⟩ := hr.written (by simp [hsent, hempty])
    rcases h.reading hphase with ht | ht
    · rw [hsent, ht, List.nil_append] at hprefix
      exact ⟨b_status, hprefix, fun _ => ⟨ht, hB⟩⟩
    · have hle := hprefix.length_le
      have hpos := List.length_pos_iff.2 hempty
      simp only [hsent, List.length_append, waitRecord, List.length_cons,
        Word32.length_bytes] at hle
      omega

theorem supervisor (h : Reported w) (hl : Lineage w) (hr : Recorded w)
    (hm : Supervisor.Move w x w') : Reported w' := by
  have hkeep (status) (hw : Witnessed w status) : Witnessed w' status :=
    hw.keep hl (.supervisor hm)
  have hnext := h.waiting hr
  obtain ⟨hreading, hforwarded, hreaped, hsending⟩ := h
  have hB := hm.childB
  clear hl hr
  cases hm with
  | gotControl =>
    rcases w.sup.handleControl_cases
      (.ofBytes (w.toSup.pending.take headerSize)) with he | ⟨he, -⟩ | ⟨he, -⟩ | ⟨he, -⟩ <;>
      constructor <;> grind -linarith
  | @gotStatus r n hpc hrec =>
    have hphase : w.sup.pc.phase ≠ .over := by simp [hpc, SupervisorPc.phase]
    obtain ⟨b_status, hprefix, hwaiting⟩ := hnext hphase
    rcases nextRecord_waitRecord hprefix hrec with ⟨rfl, rfl⟩ | rfl | ⟨rfl, rfl, hpending⟩
    · constructor <;> grind -linarith
    · constructor <;> grind -linarith
    · obtain ⟨htaken, hb⟩ := hwaiting (by simp [hpending, waitRecord])
      have hlen : (w.statusPipe.take 5).taken.length = 5 := by
        simp [htaken, hpending, waitRecord]
      constructor <;> grind -linarith
  | @reapedA usage raw_status hpc ha =>
    have hraw (status : Word32) (hs : status = raw_status ∨ w.childB = .exited status) :
        Witnessed w status := ⟨raw_status, ha, hs⟩
    constructor <;> grind -linarith
  | waitedA site | waitAFailed site => cases site <;> constructor <;> grind -linarith
  | @sent caller | @sendFailed _ caller | @openedKill caller | @killWritten caller
  | @killDenied _ caller | @killFailed _ caller | @removed caller | @removeBusy caller
  | @removeDenied caller | @removeFailed caller =>
    cases caller <;> constructor <;> grind -linarith [writes_terminated]
  | _ => constructor <;> grind -linarith

theorem keep (h : Reported w) (hl : Lineage w) (hr : Recorded w) (hm : Move w a w') :
    Reported w' := by
  cases hm with
  | runner hm =>
    have hstatus := hm.statusPipe
    rcases hm.sup with hs | ⟨⟨n, hpc⟩, -, hs⟩
    · exact h.quiet hl (.runner hm) (.inl hs) (by rw [hstatus])
    · have hunborn := hl.unforked ⟨n, hpc⟩
      obtain ⟨hreading, hforwarded, -, -⟩ := h
      refine ⟨fun _ => ?_, fun hf => ?_, fun _ hpc => ?_, fun _ hpc => ?_⟩
      · rw [hstatus]
        exact hreading (by simp [hunborn, SupervisorPc.phase])
      · rw [hm.childB, hs] at *
        exact hforwarded hf
      · simp [hs, Supervisor.go] at hpc
      · simp [hs, Supervisor.go] at hpc
  | supervisor hm => exact h.supervisor hl hr hm
  | childA hm =>
    refine h.quiet hl (.childA hm) (.inl hm.sup) ?_
    cases hm <;> rfl
  | childB hm =>
    refine h.quiet hl (.childB hm) (.inl hm.sup) ?_
    cases hm <;> rfl
  | diedSupervisor hk ha => exact h.quiet hl (.diedSupervisor hk ha) (.inr ⟨_, rfl⟩) rfl
  | tick => exact h.quiet hl .tick (.inl rfl) rfl
  | wroteStdout hpc hopen => exact h.quiet hl (.wroteStdout hpc hopen) (.inl rfl) rfl
  | wroteStderr hpc hopen => exact h.quiet hl (.wroteStderr hpc hopen) (.inl rfl) rfl
  | writeFailed => exact h
  | readStdin hpc => exact h.quiet hl (.readStdin hpc) (.inl rfl) rfl
  | finished hpc => exact h.quiet hl (.finished hpc) (.inl rfl) rfl
  | diedA hk ha => exact h.quiet hl (.diedA hk ha) (.inl rfl) rfl
  | diedB hk ha => exact h.quiet hl (.diedB hk ha) (.inl rfl) rfl

theorem init (q : Request) : Reported (.init q) := by
  constructor <;> simp [World.init]

end Reported

/-- Nothing makes the execution end but the submission: setup succeeds, and the
runner does not kill the cgroup. -/
def undisturbed (w : World) (a : Act) : Bool := !setupFails w a && !runnerKills w a

/-- What such a run keeps. -/
structure Testified (w : World) : Prop where
  lineage : Lineage w
  asked : Asked w
  recorded : Recorded w
  reported : Reported w

theorem Testified.reach (h : Runs q acts w)
    (hu : Machine.Along step (fun s a => undisturbed s a = true) (.init q) acts) : Testified w := by
  refine Machine.run_invariant (fun s a t hp ⟨hl, ha, hr, hs⟩ ht => ?_)
    ⟨Lineage.init q, Asked.init q, Recorded.init q, Reported.init q⟩ hu h
  have hm := moves_step ht
  simp only [undisturbed, Bool.and_eq_true, Bool.not_eq_true'] at hp
  exact ⟨hl.keep hm, ha.keep hl hp.2 hm, hr.keep hl hp.1 hm, hs.keep hl hr hm⟩

/-- Without a request to terminate, the `Terminated` message tells how Child B
ended, whoever told the supervisor. -/
theorem reported_end (h : Runs q acts w)
    (hu : Machine.Along step (fun s a => undisturbed s a = true) (.init q) acts)
    (hterminate : w.toSup.sent = []) {writes : List (List Byte)}
    (hpc : w.sup.pc = .send .terminated writes) :
    ∃ p : SandboxTerminatedPayload, (writes = (Message.terminated p).writes ∨ writes = [p.bytes]) ∧
      (w.childB = .unborn ∨ ∃ b_status, w.childB = .exited b_status ∧
        (WIFEXITED b_status = true ∨ WIFSIGNALED b_status = true →
          SameEnd p.wait_status b_status)) := by
  obtain ⟨-, hasked, hrecorded, hreported⟩ := Testified.reach h hu
  obtain ⟨p, hwrites, raw_status, hA, hp⟩ := hreported.sending writes hpc
  refine ⟨p, hwrites, ?_⟩
  have hkilled : w.killed.childA = false := by
    cases hk : w.killed.childA with
    | false => rfl
    | true =>
      rcases hasked.killed hk with hs | hs
      · exact absurd hterminate hs
      · simp [hpc, SupervisorPc.phase] at hs
  rcases hrecorded.left raw_status hA with hk | hB | ⟨b_status, hB, rfl⟩
  · simp [hkilled] at hk
  · exact .inl hB
  · refine .inr ⟨b_status, hB, fun hend => ?_⟩
    rcases hp with hp | hp
    · rw [hp]
      exact sameEnd_mirror hend
    · rw [hB] at hp
      cases hp
      exact .refl _

/-- The submission dumps core, and the supervisor sees the end of Child A before
it looks at the record. -/
def overtaken : List Act :=
  boot ++ [Act.submission (.finish 0x8B)] ++ List.replicate 5 (Act.childA .ok) ++
    [Act.supervisor (.ready false false), .supervisor (.reap .zero), .supervisor .ok]

theorem reported_end_overtaken :
    ∃ w, Runs ⟨[], 1000, 0⟩ overtaken w ∧
      w.sup.pc = .send .terminated (Message.terminated ⟨0x0B, .zero⟩).writes ∧
      ∃ p : SandboxTerminatedPayload,
        ((Message.terminated ⟨0x0B, .zero⟩).writes = (Message.terminated p).writes ∨
          (Message.terminated ⟨0x0B, .zero⟩).writes = [p.bytes]) ∧
        (w.childB = .unborn ∨ ∃ b_status, w.childB = .exited b_status ∧
          (WIFEXITED b_status = true ∨ WIFSIGNALED b_status = true →
            SameEnd p.wait_status b_status)) := by
  obtain ⟨w, hw, hpc, hterminate⟩ : ∃ w, Runs ⟨[], 1000, 0⟩ overtaken w ∧
      w.sup.pc = .send .terminated (Message.terminated ⟨0x0B, .zero⟩).writes ∧
      w.toSup.sent = [] := exists_run (by decide +kernel)
  exact ⟨w, hw, hpc, reported_end hw (by decide +kernel) hterminate hpc⟩

end OnlineJudge
