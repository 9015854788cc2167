import OnlineJudge.Ending
import OnlineJudge.Manned

/-!
# Setup failures on the status pipe

The status pipe carries a report of a setup failure, the wait status that Child A
forwards, or both, and then the report comes first. Until the supervisor has read
a report it takes nothing from the pipe but a whole wait status.
-/

namespace OnlineJudge

variable {q : Request} {acts : List Act} {w w' : World} {x : Answer} {a : Act}

/-- The bytes begin with a whole report of a setup failure. -/
def reportsFailure : List Byte → Bool
  | [] => false
  | first :: rest => first ≠ tag && setupFailedSize ≤ rest.length + 1

theorem reportsFailure_append {bytes : List Byte} (h : reportsFailure bytes = true)
    (more : List Byte) : reportsFailure (bytes ++ more) = true := by
  cases bytes with
  | nil => cases h
  | cons first rest =>
    simp only [reportsFailure, List.cons_append, Bool.and_eq_true, decide_eq_true_eq,
      List.length_append] at h ⊢
    exact ⟨h.1, by omega⟩

@[simp] theorem reportsFailure_tag (rest : List Byte) : reportsFailure (tag :: rest) = false := by
  simp [reportsFailure]

/-- Whatever routine reports, its first write is a report by itself. -/
theorem FailureReport.reportsFailure_writes (report : FailureReport) (stage : SandboxSetupStage)
    (e : Word32) :
    ∃ chunk rest, report.writes stage e = chunk :: rest ∧ reportsFailure chunk = true := by
  cases report with
  | failSetup => exact ⟨_, _, rfl, rfl⟩
  | reportFailure =>
    refine ⟨_, _, rfl, ?_⟩
    have hne := stage_head_ne_tag stage
    have hlen := (setupFailure stage e).length_bytes
    obtain ⟨rest, hrest⟩ := failure_bytes_cons stage e
    rw [hrest] at hlen ⊢
    simp only [List.length_cons] at hlen
    simp only [reportsFailure, Bool.and_eq_true, decide_eq_true_eq]
    exact ⟨hne, Nat.le_of_eq hlen.symm⟩

/-! ## The writers -/

/-- A report is on its way: its first write is done, or nothing is written. -/
def Reporting (sent : List Byte) (writes : List (List Byte)) : Prop :=
  reportsFailure sent = true ∨
    sent = [] ∧ ∃ chunk rest, writes = chunk :: rest ∧ reportsFailure chunk = true

theorem Reporting.of_setup (report : FailureReport) (stage : SandboxSetupStage) (e : Word32) :
    Reporting [] (report.writes stage e) :=
  .inr ⟨rfl, report.reportsFailure_writes stage e⟩

theorem Reporting.written {sent chunk : List Byte} {rest : List (List Byte)}
    (h : Reporting sent (chunk :: rest)) : reportsFailure (sent ++ chunk) = true := by
  rcases h with h | ⟨rfl, _, _, heq, h⟩
  · exact reportsFailure_append h chunk
  · cases heq
    exact h

/-- What the children have written to the status pipe, and what they are about to
write. -/
structure Written (w : World) : Prop where
  freshA : w.childA.beforeFork = true → (∀ writes, w.childA ≠ .report false writes) →
    w.statusPipe.sent = []
  freshB : w.childB.alive = true → (∀ writes, w.childB ≠ .report writes) →
    w.statusPipe.sent = []
  reportA : ∀ writes, w.childA = .report false writes → Reporting w.statusPipe.sent writes
  reportB : ∀ writes, w.childB = .report writes → Reporting w.statusPipe.sent writes
  waitB : w.childA = .waitB → w.statusPipe.sent = [] ∨ reportsFailure w.statusPipe.sent = true
  forward : ∀ b_status writes, w.childA = .forward b_status writes →
    w.childB = .exited b_status ∧ (reportsFailure w.statusPipe.sent = true ∨
      w.statusPipe.sent = [] ∧ writes = [[tag], b_status.bytes] ∨
      w.statusPipe.sent = [tag] ∧ writes = [b_status.bytes])
  shape : w.statusPipe.sent = [] ∨ reportsFailure w.statusPipe.sent = true ∨
    ∃ b_status, w.childB = .exited b_status ∧
      (w.statusPipe.sent = [tag] ∨ w.statusPipe.sent = waitRecord b_status)

namespace Written

theorem quiet (h : Written w) (hA : w'.childA = w.childA) (hB : w'.childB = w.childB)
    (hsent : w'.statusPipe.sent = w.statusPipe.sent) : Written w' := by
  obtain ⟨hfA, hfB, hrA, hrB, hwait, hfwd, hshape⟩ := h
  rw [← hA] at hfA hrA hwait hfwd
  rw [← hB] at hfB hrB hfwd hshape
  rw [← hsent] at hfA hfB hrA hrB hwait hfwd hshape
  exact ⟨hfA, hfB, hrA, hrB, hwait, hfwd, hshape⟩

theorem supervisor (h : Written w) (hl : Lineage w) (hm : Supervisor.Move w x w') :
    Written w' := by
  have hsent := hm.statusPipe_sent
  rcases hm.phases with ⟨-, hA, -, -⟩ | ⟨hbefore, -, hA, -, -⟩ | ⟨-, -, hA, -⟩ | ⟨-, hA, -, -⟩
  · exact h.quiet hA hm.childB hsent
  · have hunborn := hl.unborn hbefore
    have hB := hm.childB
    have hunbornB := hl.unbornB (by simp [hunborn, ChildA.beforeFork])
    have hempty := h.freshA (by simp [hunborn, ChildA.beforeFork]) (by simp [hunborn])
    constructor <;> grind -linarith
  · exact h.quiet hA hm.childB hsent
  · exact h.quiet hA hm.childB hsent

theorem childA (h : Written w) (hl : Lineage w) (hm : ChildA.Move w x w') : Written w' := by
  obtain ⟨hfA, hfB, hrA, hrB, hwait, hfwd, hshape⟩ := h
  have hunbornB := hl.unbornB
  have hwaitedB := hl.waitedB
  clear hl
  cases hm with
  | again => exact ⟨hfA, hfB, hrA, hrB, hwait, hfwd, hshape⟩
  | released hpc => constructor <;> grind -linarith [childASetup, ChildA.next]
  | @setupDone _ rest hpc =>
    have := ChildA.next_cases rest
    constructor <;> grind -linarith
  | @setupFailed call rest e hpc =>
    have hempty := hfA (by simp [hpc, ChildA.beforeFork]) (by simp [hpc])
    have := Reporting.of_setup call.report call.stage e
    constructor <;> grind -linarith
  | forkFailed hpc =>
    have hempty := hfA (by simp [hpc, ChildA.beforeFork]) (by simp [hpc])
    have := Reporting.of_setup .failSetup .namespace
    constructor <;> grind -linarith
  | @toldStatus chunk rest hpc =>
    have hfailure := (hrA _ hpc).written
    rw [← Channel.sent_put] at hfailure
    have hunborn := hunbornB (by simp [hpc, ChildA.beforeFork])
    constructor <;> grind -linarith [Reporting]
  | forked hpc =>
    have hempty := hfA (by simp [hpc, ChildA.beforeFork]) (by simp [hpc])
    have := ChildB.next_cases childBSetup
    constructor <;> grind -linarith
  | waited hpc hb =>
    have hempty := hwait hpc
    constructor <;> grind -linarith
  | @forwarded b_status chunk rest hpc =>
    obtain ⟨hb, hcases⟩ := hfwd _ _ hpc
    rcases hcases with hf | ⟨hs, hw⟩ | ⟨hs, hw⟩
    · have hfailure := reportsFailure_append hf chunk
      rw [← Channel.sent_put] at hfailure
      constructor <;> grind -linarith
    · cases hw
      have hsent : (w.statusPipe.put [tag]).sent = [tag] := by simp [hs]
      constructor <;> grind -linarith
    · cases hw
      have hsent : (w.statusPipe.put b_status.bytes).sent = waitRecord b_status := by
        simp [hs, waitRecord]
      constructor <;> grind -linarith
  | _ => constructor <;> grind -linarith

theorem childB (h : Written w) (hl : Lineage w) (hm : ChildB.Move w x w') : Written w' := by
  obtain ⟨hfA, hfB, hrA, hrB, hwait, hfwd, hshape⟩ := h
  have hunbornB := hl.unbornB
  have hwaitedB := hl.waitedB
  clear hl
  cases hm with
  | again => exact ⟨hfA, hfB, hrA, hrB, hwait, hfwd, hshape⟩
  | @setupDone _ rest hpc =>
    have := ChildB.next_cases rest
    constructor <;> grind -linarith
  | @setupFailed call rest e hpc =>
    have hempty := hfB (by simp [hpc, ChildB.alive]) (by simp [hpc])
    have := Reporting.of_setup call.report call.stage e
    constructor <;> grind -linarith
  | @told chunk rest hpc =>
    have hfailure := (hrB _ hpc).written
    rw [← Channel.sent_put] at hfailure
    constructor <;> grind -linarith [Reporting]
  | reportLost hpc => constructor <;> grind -linarith [Reporting]

theorem keep (h : Written w) (hl : Lineage w) (hm : Move w a w') : Written w' := by
  cases hm with
  | runner hm => exact h.quiet hm.childA hm.childB (by rw [hm.statusPipe])
  | supervisor hm => exact h.supervisor hl hm
  | childA hm => exact h.childA hl hm
  | childB hm => exact h.childB hl hm
  | finished | diedB =>
    obtain ⟨hfA, hfB, hrA, hrB, hwait, hfwd, hshape⟩ := h
    have hunbornB := hl.unbornB
    have hwaitedB := hl.waitedB
    constructor <;> grind -linarith [Reporting]
  | diedA =>
    exact ⟨by simp [ChildA.beforeFork], h.freshB, by rintro _ ⟨⟩, h.reportB,
      by rintro ⟨⟩, by rintro _ _ ⟨⟩, h.shape⟩
  | _ => exact h.quiet rfl rfl rfl

theorem init (q : Request) : Written (.init q) := by
  constructor <;> simp [World.init]

end Written

/-! ## The reader -/

/-- The loop may still read from the status pipe. -/
def SupervisorPc.listening : SupervisorPc → Bool
  | unborn | mkdirCgroup | mkdtemp | createPipes _ | fork | openProcs | writeProcs | release
  | send .ready _ | poll | readControl | openKill .loop | writeKill .loop | readStatus
  | waitNoHang => true
  | _ => false

attribute [grind =] SupervisorPc.listening

/-- What the supervisor has taken from the status pipe. -/
structure Listening (w : World) : Prop where
  written : Written w
  taken : w.sup.pc.listening = true →
    w.statusPipe.taken = [] ∨ ∃ b_status, w.statusPipe.taken = waitRecord b_status

theorem length_waitRecord (b_status : Word32) : (waitRecord b_status).length = 5 := by
  simp [waitRecord]

/-- What waits in the pipe is everything that was ever written, or nothing. -/
theorem Listening.waiting (h : Listening w) (hpc : w.sup.pc.listening = true) :
    w.statusPipe.taken = [] ∧ w.statusPipe.pending = w.statusPipe.sent ∨
      (∃ b_status, w.statusPipe.taken = waitRecord b_status) ∧ w.statusPipe.pending = [] := by
  have hsent : w.statusPipe.sent = w.statusPipe.taken ++ w.statusPipe.pending := rfl
  rcases h.taken hpc with ht | ⟨b_status, ht⟩
  · rw [ht, List.nil_append] at hsent
    exact .inl ⟨ht, hsent.symm⟩
  · refine .inr ⟨⟨b_status, ht⟩, List.eq_nil_of_length_eq_zero ?_⟩
    have hlen : w.statusPipe.sent.length = 5 + w.statusPipe.pending.length := by
      rw [hsent, ht, List.length_append, length_waitRecord]
    rcases h.written.shape with hs | hs | ⟨b_status', -, hs | hs⟩
    · simp only [hs, List.length_nil] at hlen
      omega
    · rw [hsent, ht] at hs
      simp [waitRecord] at hs
    · simp only [hs, List.length_singleton] at hlen
      omega
    · simp only [hs, length_waitRecord] at hlen
      omega

/-- A record that the supervisor reads is the first thing in the pipe. -/
theorem nextRecord_sent {sent : List Byte} {closed : Bool} {r : StatusPipeReadResult} {n : Nat}
    {b_status : Word32}
    (h : sent = [] ∨ reportsFailure sent = true ∨ sent = [tag] ∨ sent = waitRecord b_status)
    (hr : nextRecord sent closed = some (r, n)) :
    r = .eof ∧ n = 0 ∧ sent = [] ∨ (∃ failure, r = .payload failure) ∧ reportsFailure sent = true ∨
      r = .error ∧ sent = [tag] ∧ closed = true ∨
      r = .waitStatus b_status ∧ n = 5 ∧ sent = waitRecord b_status := by
  rcases h with rfl | h | rfl | rfl
  · simp only [nextRecord] at hr
    split at hr <;> cases hr
    exact .inl ⟨rfl, rfl, rfl⟩
  · cases sent with
    | nil => cases h
    | cons first rest =>
      have hfirst := h
      simp only [reportsFailure, Bool.and_eq_true, decide_eq_true_eq] at hfirst
      simp only [nextRecord, if_neg hfirst.1, List.length_cons, if_pos hfirst.2] at hr
      cases hr
      exact .inr (.inl ⟨⟨_, rfl⟩, h⟩)
  · simp only [nextRecord, if_true, List.length_nil] at hr
    split at hr
    · omega
    · split at hr <;> cases hr
      rename_i hclosed
      exact .inr (.inr (.inl ⟨rfl, rfl, hclosed⟩))
  · simp only [nextRecord, waitRecord, if_true, Word32.length_bytes, Nat.le_refl] at hr
    cases hr
    refine .inr (.inr (.inr ⟨?_, rfl, rfl⟩))
    rw [List.take_of_length_le (by simp), Word32.ofBytes_bytes]

namespace Listening

/-- What `read_status_pipe` finds, while the loop listens. -/
theorem found (h : Listening w) (hpc : w.sup.pc.listening = true) {closed : Bool}
    {r : StatusPipeReadResult} {n : Nat}
    (hr : nextRecord w.statusPipe.pending closed = some (r, n)) :
    r = .eof ∧ n = 0 ∨
      (∃ failure, r = .payload failure) ∧ reportsFailure w.statusPipe.sent = true ∨
      r = .error ∧ w.statusPipe.pending = [tag] ∧ closed = true ∨
      (∃ b_status, r = .waitStatus b_status) ∧ n = 5 ∧ w.statusPipe.taken = [] ∧
        ∃ b_status, w.statusPipe.pending = waitRecord b_status := by
  rcases h.waiting hpc with ⟨ht, hp⟩ | ⟨-, hp⟩
  · have hshape : ∃ b_status, w.statusPipe.pending = [] ∨
        reportsFailure w.statusPipe.pending = true ∨ w.statusPipe.pending = [tag] ∨
        w.statusPipe.pending = waitRecord b_status := by
      rw [hp]
      rcases h.written.shape with hs | hs | ⟨b_status, -, hs | hs⟩
      · exact ⟨0, .inl hs⟩
      · exact ⟨0, .inr (.inl hs)⟩
      · exact ⟨0, .inr (.inr (.inl hs))⟩
      · exact ⟨b_status, .inr (.inr (.inr hs))⟩
    obtain ⟨b_status, hshape⟩ := hshape
    rcases nextRecord_sent hshape hr with ⟨rfl, rfl, -⟩ | hf | ⟨rfl, he, hc⟩ | ⟨rfl, rfl, he⟩
    · exact .inl ⟨rfl, rfl⟩
    · exact .inr (.inl (hp ▸ hf))
    · exact .inr (.inr (.inl ⟨rfl, he, hc⟩))
    · exact .inr (.inr (.inr ⟨⟨_, rfl⟩, rfl, ht, _, he⟩))
  · rcases @nextRecord_sent _ _ _ _ 0 (.inl hp) hr with
      ⟨rfl, rfl, -⟩ | ⟨-, hf⟩ | ⟨-, he, -⟩ | ⟨-, -, he⟩
    · exact .inl ⟨rfl, rfl⟩
    · simp [hp, reportsFailure] at hf
    · simp [hp] at he
    · simp [hp, waitRecord] at he

theorem supervisor (h : Listening w) (hl : Lineage w) (hm : Supervisor.Move w x w') :
    Listening w' := by
  refine ⟨h.written.supervisor hl hm, ?_⟩
  have htaken := h.taken
  cases hm with
  | @gotStatus r n hpc hr =>
    intro hpc'
    rcases h.found (by simp [hpc, SupervisorPc.listening]) hr with
      ⟨rfl, rfl⟩ | ⟨⟨failure, rfl⟩, -⟩ | ⟨rfl, -⟩ | ⟨-, rfl, ht, b_status, hp⟩
    · simpa using htaken (by simp [hpc, SupervisorPc.listening])
    · simp [Supervisor.statusReturned, Supervisor.go, SupervisorPc.listening] at hpc'
    · clear htaken hl h
      grind -linarith
    · refine .inr ⟨b_status, ?_⟩
      rw [Channel.taken_take, ht, hp, List.nil_append,
        List.take_of_length_le (Nat.le_of_eq (length_waitRecord b_status))]
  | gotControl =>
    clear hl h
    rcases w.sup.handleControl_cases
      (.ofBytes (w.toSup.pending.take headerSize)) with he | he | he | he <;> grind -linarith
  | waitedA site | waitAFailed site => clear hl h; cases site <;> grind -linarith
  | @sent caller | @sendFailed _ caller | @openedKill caller | @killWritten caller
  | @killDenied _ caller | @killFailed _ caller | @removed caller | @removeBusy caller
  | @removeDenied caller | @removeFailed caller =>
    clear hl h
    cases caller <;> grind -linarith
  | _ => clear hl h; grind -linarith

theorem quiet (h : Listening w) (hw : Written w')
    (hpc : w'.sup.pc.listening = true → w.sup.pc.listening = true)
    (ht : w'.statusPipe.taken = w.statusPipe.taken) : Listening w' :=
  ⟨hw, fun hl => by rw [ht]; exact h.taken (hpc hl)⟩

theorem keep (h : Listening w) (hl : Lineage w) (hm : Move w a w') : Listening w' := by
  have hw := h.written.keep hl hm
  cases hm with
  | runner hm =>
    refine h.quiet hw (fun hpc => ?_) (by rw [hm.statusPipe])
    rcases hm.sup with hs | ⟨hsetup, -, -⟩
    · rwa [hs] at hpc
    · rw [hl.unforked hsetup]
      rfl
  | supervisor hm => exact h.supervisor hl hm
  | childA hm => exact h.quiet hw (by rw [hm.sup]; exact id) (by cases hm <;> rfl)
  | childB hm => exact h.quiet hw (by rw [hm.sup]; exact id) (by cases hm <;> rfl)
  | diedSupervisor => exact h.quiet hw nofun rfl
  | _ => exact h.quiet hw id rfl

theorem init (q : Request) : Listening (.init q) := ⟨.init q, fun _ => .inl rfl⟩

/-- The only bytes that `read_status_pipe` rejects are a tag without its
status. -/
theorem truncated_of_error (h : Listening w) (hpc : w.sup.pc = .readStatus) {n : Nat}
    (hr : nextRecord w.statusPipe.pending (!w.statusWriter) = some (.error, n)) :
    truncated w .ok = true := by
  rcases h.found (by simp [hpc, SupervisorPc.listening]) hr with
    ⟨hr, -⟩ | ⟨⟨_, hr⟩, -⟩ | ⟨-, hp, hc⟩ | ⟨⟨_, hr⟩, -⟩
  · cases hr
  · cases hr
  · simp [truncated, hpc, hp, hc]
  · cases hr

end Listening

end OnlineJudge
