import OnlineJudge.Reaping
import OnlineJudge.SetupReports
import OnlineJudge.Wire

/-!
# A session

The runner takes whole messages from the control socket as long as nobody tears
them, and its program counter says how many it has taken: none before `Ready`,
one while the loop runs, two once the loop has its terminal message.
-/

namespace OnlineJudge

variable {q : Request} {acts : List Act} {w w' : World} {x : Answer} {a : Act}

/-! ## An orderly run -/

/-- No call of the runner or of the supervisor fails, except that the submission
may have closed its stdin. -/
def attended (w : World) : Act → Bool
  | .runner (.fail e) => e = EPIPE && w.runner.pc = .writeStdin
  | .supervisor (.fail _) => false
  | _ => true

/-- A call fails Child A before its release, or while it reports on the control
socket. -/
def struck (w : World) : Act → Bool
  | .childA (.fail e) =>
    e ≠ EINTR &&
      match w.childA with
      | .awaitRelease | .report true _ => true
      | _ => false
  | _ => false

/-- The supervisor finds the tag of a wait status without the status. -/
def cutShort (w : World) : Act → Bool
  | .supervisor x => truncated w x
  | _ => false

/-- The runner sends `Terminate` when nobody holds the other end any more. -/
def unheard (w : World) : Act → Bool
  | .runner .ok => w.runner.pc = .sendTerminate && !w.controlPeer
  | _ => false

def orderly (w : World) (a : Act) : Bool :=
  attended w a && !struck w a && !torn w a && !cutShort w a && !unheard w a

/-! ## What the runner has taken -/

/-- In the loop, between two messages. -/
def RunnerPc.looping : RunnerPc → Bool
  | loop | sendTerminate | poll _ | readHeader | writeStdin | readStdout | readStderr => true
  | _ => false

attribute [grind =] RunnerPc.looping

/-- The runner has taken these messages, and the header of one more. -/
inductive Attends (r : Runner) : List Message → Option Message → Prop
  | setup {n} (hpc : r.pc = .setup n) (hopen : 2 ≤ n → r.control_open = true) : Attends r [] none
  | awaiting (hpc : r.pc = .receiveHeader) (hopen : r.control_open = true) : Attends r [] none
  | opening {m} (hpc : r.pc = .receivePayload m.header) (hopen : r.control_open = true) :
    Attends r [] (some m)
  | looping {m} (hm : m.type = .ready) (hpc : r.pc.looping = true) (hopen : r.control_open = true) :
    Attends r [m] none
  | failing {m m'} (hm : m.type = .ready) (hm' : m'.type = .setupFailed)
    (hpc : r.pc = .readSetupFailed) (hopen : r.control_open = true) : Attends r [m] (some m')
  | ending {m m'} (hm : m.type = .ready) (hm' : m'.type = .terminated)
    (hpc : r.pc = .readTerminated) (hopen : r.control_open = true) : Attends r [m] (some m')

/-- The session is open: `taken` and `unread` are the messages completed so far. -/
structure Live (ms taken unread : List Message) (begun : Option Message) (w : World) : Prop where
  wire : Wire ms unread begun w
  manned : Manned w
  split : ms = taken ++ unread
  decoded : w.runner.decoded = taken.map Message.pair
  attends : Attends w.runner taken begun
  unfinished : w.runner.submission_finished = false
  unasked : w.runner.termination_requested = false → w.toSup.pending = []
  asking : w.runner.pc = .sendTerminate → w.runner.termination_requested = false
  born : (∀ n, w.runner.pc ≠ .setup n) → w.sup.pc ≠ .unborn

/-- What a terminal message makes of the run. -/
inductive Terminal (ms : List Message) (w : World) : Prop
  | failed (hm : ∃ m ∈ ms, m.type = .setupFailed)
    (hpc : w.runner.pc = .reapFailed ∨ w.runner.pc = .finishSetupFailed ∨
      w.runner.pc = .returned ∧ w.runner.result.status = .sandboxFailure)
  | ended (hm : ∃ m ∈ ms, m.type = .terminated) (hno : ∀ m ∈ ms, m.type ≠ .setupFailed)
    (hpc : w.runner.pc = .finishTerminated ∧ w.runner.submission_finished = true ∧
        w.reaped.supervisor = false ∨
      w.runner.pc = .loop ∧ w.runner.submission_finished = true ∧
        w.runner.supervisor_reaped = true ∧ w.runner.stdin_open = false ∧
        w.runner.stdout_open = false ∧ w.runner.stderr_open = false ∨
      w.runner.pc = .returned ∧ (w.runner.result.status = .completed ∨
        w.runner.result.status = .signaled ∨ w.runner.result.status = .timedOut))

/-- The runner has its terminal message and has closed the control socket. -/
structure Settled (ms : List Message) (w : World) : Prop where
  formed : ∀ m ∈ ms, m.Formed
  decoded : ∃ taken, taken <+: ms ∧ w.runner.decoded = taken.map Message.pair ∧
    (taken = ms ∨ ∃ before m, taken = before ++ [m] ∧ m.type = .setupFailed)
  closed : w.runner.control_open = false
  terminal : Terminal ms w

def Session (ms : List Message) (w : World) : Prop :=
  (∃ taken unread begun, Live ms taken unread begun w) ∨ Settled ms w

/-! ## Reading -/

section
variable {ms taken unread : List Message} {begun : Option Message} {m : Message}

theorem Wire.formed_half (h : Wire ms unread begun w) (hm : w.half = some m) : m.Formed := by
  obtain ⟨hsup, hchild, -⟩ := h.senders
  rw [World.half, Option.or_eq_some_iff] at hm
  rcases hm with hm | ⟨-, hm⟩
  · unfold SupervisorPc.half at hm
    split at hm <;> cases hm
    rename_i caller payload hpc
    obtain ⟨m', hf, ht, hw | hw⟩ := hsup _ _ hpc
    · cases hw
    · cases hw
      rwa [← ht]
  · unfold ChildA.half at hm
    split at hm <;> cases hm
    rename_i payload hpc
    obtain ⟨m', hf, ht, hw | hw⟩ := hchild _ hpc
    · cases hw
    · cases hw
      rwa [← ht]

/-- The next message that the runner will see is a whole one, and of the type that
the runner expects. -/
theorem Live.next (h : Live ms taken unread begun w)
    (hm : FrameFormat.next unread w.half = some m) :
    m.Formed ∧ (taken = [] → m.type = .setupFailed ∨ m.type = .ready) ∧
      (∀ first, taken = [first] → first.type = .ready →
        m.type = .setupFailed ∨ m.type = .terminated) := by
  have hmem : m ∈ unread ++ w.half.toList := List.mem_of_head? hm
  have hbegins := h.wire.begins
  rw [h.split, List.append_assoc] at hbegins
  refine ⟨?_, ?_, ?_⟩
  · rcases List.mem_append.1 hmem with hu | hh
    · exact h.wire.formed m (by rw [h.split]; exact List.mem_append_right taken hu)
    · exact h.wire.formed_half (by simpa using hh)
  · rintro rfl
    obtain ⟨rest, hrest⟩ := List.head?_eq_some_iff.1 hm
    rw [List.nil_append, hrest] at hbegins
    exact hbegins.imp_right And.left
  · rintro first rfl hfirst
    rcases hbegins with hf | ⟨-, hrest⟩
    · rw [hfirst] at hf
      cases hf
    · exact hrest m hmem

/-- A supervisor whose socket has no peer has sent two messages. -/
theorem Live.gone (h : Live ms taken unread begun w) (hsetup : ∀ n, w.runner.pc ≠ .setup n)
    (hpeer : w.controlPeer = false) : w.half = none ∧ 2 ≤ ms.length := by
  have hborn := h.born hsetup
  have hsaid := h.wire.said
  simp only [World.controlPeer, Bool.or_eq_false_iff] at hpeer
  obtain ⟨⟨hs, hA⟩, -⟩ := hpeer
  cases hpc : w.sup.pc with
  | unborn => exact absurd hpc hborn
  | exited s =>
    rw [hpc] at hsaid
    refine ⟨?_, hsaid⟩
    cases hA' : w.childA <;> simp_all [World.half, SupervisorPc.half, ChildA.half, ChildA.alive]
  | _ => simp [Supervisor.alive, hpc] at hs

theorem read_cases {size : Nat} {yes : List Byte → Runner} {no : Runner}
    (h : Runner.readControl w size yes no x = some w') (hx : ∀ e, x ≠ .fail e) :
    size ≤ w.toRunner.pending.length ∧
        w' = { w with
          toRunner := w.toRunner.take size
          runner := yes (w.toRunner.pending.take size) } ∨
      w.toRunner.pending.length < size ∧ w.controlPeer = false := by
  cases x <;> simp only [Runner.readControl, reduceCtorEq] at h
  · split at h
    · rename_i hlen
      cases h
      exact .inl ⟨hlen, rfl⟩
    · rename_i hlen
      split at h <;> cases h
      rename_i hpeer
      exact .inr ⟨by omega, by simpa using hpeer⟩
  · exact absurd rfl (hx _)

/-- The runner reads a header. -/
theorem Live.read_header (h : Live ms taken unread none w)
    (hsetup : ∀ n, w.runner.pc ≠ .setup n) (hlen : taken.length ≤ 1)
    {yes : List Byte → Runner} {no : Runner}
    (ht : Runner.readControl w headerSize yes no x = some w') (hx : ∀ e, x ≠ .fail e) :
    ∃ m, FrameFormat.next unread w.half = some m ∧
      Message.format.Frames (w.toRunner.take headerSize) unread w.half (some m) ∧
      w' = { w with toRunner := w.toRunner.take headerSize, runner := yes m.header.bytes } := by
  rcases read_cases ht hx with ⟨hle, rfl⟩ | ⟨hlt, hpeer⟩
  · obtain ⟨m, hnext, htake, hframes⟩ := h.wire.frames.take_header hle
    have hbytes : w.toRunner.pending.take headerSize = m.header.bytes := htake
    exact ⟨m, hnext, hframes, by rw [hbytes]⟩
  · obtain ⟨hhalf, hms⟩ := h.gone hsetup hpeer
    rw [h.split, List.length_append] at hms
    have hne : unread ≠ [] := List.ne_nil_of_length_pos (by omega)
    have := h.wire.frames.header_le hne
    exact absurd hlt (Nat.not_lt.2 this)

/-- The runner reads the payload that its header announced. -/
theorem Live.read_payload (h : Live ms taken unread (some m) w)
    (hsetup : ∀ n, w.runner.pc ≠ .setup n) {size : Nat} (hsize : size = m.payload.length)
    {yes : List Byte → Runner} {no : Runner}
    (ht : Runner.readControl w size yes no x = some w') (hx : ∀ e, x ≠ .fail e) :
    ∃ rest, unread = m :: rest ∧
      Message.format.Frames (w.toRunner.take size) rest w.half none ∧
      w' = { w with toRunner := w.toRunner.take size, runner := yes m.payload } := by
  have hframes := h.wire.frames
  have hformed := (h.next hframes.next_of_begun).1
  rcases read_cases ht hx with ⟨hle, rfl⟩ | ⟨hlt, hpeer⟩
  · obtain ⟨rest, hu, htake, hframes⟩ :=
      hframes.take_payload hsize (hsize ▸ hformed.pos) hle
    exact ⟨rest, hu, hframes, by rw [htake]; rfl⟩
  · have := hframes.payload_le (h.gone hsetup hpeer).1
    exact absurd hlt (Nat.not_lt.2 (hsize ▸ this))

end

/-! ## The runner's steps -/

section
variable {ms taken unread taken' unread' : List Message} {begun begun' : Option Message}
  {m : Message}

theorem Manned.runner (h : Manned w) (hsup : w'.sup = w.sup) (hA : w'.childA = w.childA)
    (hcgroup : w'.cgroup = w.cgroup) (hkilled : w'.killed = w.killed)
    (hreaped : w'.reaped = w.reaped)
    (horders : w'.toSup = w.toSup ∨
      w.toSup.pending = [] ∧ w'.toSup.pending = Message.terminate.bytes) : Manned w' := by
  obtain ⟨hsound, hhold, hearly, hatt, hunw, hwaited, hords, hord, hunk, hunr⟩ := h
  have hne := terminate_ne_nil
  constructor <;> grind -linarith

/-- A step of the runner that keeps the session open. -/
theorem Live.advance {r : Runner} {c d i o e : Channel Byte} (h : Live ms taken unread begun w)
    (hframes : Message.format.Frames c unread' w.half begun') (hsplit : ms = taken' ++ unread')
    (hdecoded : r.decoded = taken'.map Message.pair) (hattends : Attends r taken' begun')
    (hunfinished : r.submission_finished = false)
    (horders : d = w.toSup ∧ r.termination_requested = w.runner.termination_requested ∨
      w.runner.termination_requested = false ∧ r.termination_requested = true ∧
        d = w.toSup.put Message.terminate.bytes)
    (hasking : r.pc = .sendTerminate → r.termination_requested = false)
    (hsetup : (∀ n, r.pc ≠ .setup n) → ∀ n, w.runner.pc ≠ .setup n) :
    Live ms taken' unread' begun'
      { w with runner := r, toRunner := c, toSup := d, stdin := i, stdout := o, stderr := e } := by
  obtain ⟨-, hformed, hbegins, hsaid, hsilent, hfinal, hlast, hsenders⟩ := h.wire
  refine ⟨⟨hframes, hformed, hbegins, hsaid, hsilent, hfinal, hlast,
    hsenders.sup, hsenders.childA, hsenders.single⟩, ?_, hsplit, hdecoded, hattends, hunfinished,
    ?_, hasking, fun hpc => h.born (hsetup hpc)⟩
  · refine h.manned.runner rfl rfl rfl rfl rfl ?_
    rcases horders with ⟨hd, -⟩ | ⟨hr, -, hd⟩
    · exact .inl hd
    · have hempty := h.unasked hr
      exact .inr ⟨hempty, by simp [hd, hempty]⟩
  · intro hr
    rcases horders with ⟨hd, ht⟩ | ⟨-, ht, -⟩
    · rw [ht] at hr
      simpa [hd] using h.unasked hr
    · simp [ht] at hr

/-- A step of the runner that neither reads nor sends. -/
theorem Live.stay {r : Runner} {i o e : Channel Byte} (h : Live ms taken unread begun w)
    (hdecoded : r.decoded = w.runner.decoded) (hattends : Attends r taken begun)
    (hunfinished : r.submission_finished = w.runner.submission_finished)
    (horders : r.termination_requested = w.runner.termination_requested)
    (hasking : r.pc = .sendTerminate → r.termination_requested = false)
    (hsetup : (∀ n, r.pc ≠ .setup n) → ∀ n, w.runner.pc ≠ .setup n) :
    Live ms taken unread begun
      { w with runner := r, stdin := i, stdout := o, stderr := e } :=
  h.advance h.wire.frames h.split (hdecoded.trans h.decoded) hattends
    (hunfinished.trans h.unfinished) (.inl ⟨rfl, horders⟩) hasking hsetup

theorem ne_fail_of_attended (hx : attended w (.runner x) = true)
    (hpc : w.runner.pc ≠ .writeStdin) (e : Errno) : x ≠ .fail e := by
  rintro rfl
  simp [attended, hpc] at hx

/-- The setup, up to the fork of the supervisor. -/
theorem Live.setup {n : Nat} (h : Live ms [] unread none w) (hl : Lineage w)
    (hpc : w.runner.pc = .setup n) (hopen : 2 ≤ n → w.runner.control_open = true)
    (hx : ∀ e, x ≠ .fail e) (ht : Runner.setup w n x = some w') : Live ms [] unread none w' := by
  cases x with
  | ok =>
    simp only [Runner.setup] at ht
    split at ht <;> cases ht
    · refine h.stay rfl (.setup rfl fun hn => ?_) rfl rfl (by rintro ⟨⟩) fun hpc' =>
        absurd rfl (hpc' (n + 1))
      by_cases h1 : n = 1
      · simp [h1]
      · simp [hopen (by omega)]
    · rename_i hn
      have hunborn := hl.unforked ⟨n, hpc⟩
      refine ⟨?_, ?_, h.split, h.decoded, .awaiting rfl (hopen (by omega)), h.unfinished,
        h.unasked, by rintro ⟨⟩, fun _ => by rintro ⟨⟩⟩
      · refine h.wire.quiet rfl ?_ ?_ (by simp [hunborn]) (fun _ => id)
          ⟨by rintro _ _ ⟨⟩, h.wire.senders.childA, .inl rfl⟩
        · simp [World.half, hunborn, Supervisor.go, SupervisorPc.half]
        · simp [hunborn, Supervisor.go, SupervisorPc.said]
      · obtain ⟨hsound, hhold, hearly, hatt, hunw, hwaited, hords, hord, hunk, hunr⟩ := h.manned
        constructor <;> grind -linarith
  | fail e => exact absurd rfl (hx e)
  | _ => cases ht

/-- The header of the first message. -/
theorem Live.awaiting (h : Live ms [] unread none w) (hpc : w.runner.pc = .receiveHeader)
    (hopen : w.runner.control_open = true) (hx : ∀ e, x ≠ .fail e)
    (ht : Runner.step w x = some w') : ∃ begun', Live ms [] unread begun' w' := by
  simp only [Runner.step, hpc] at ht
  obtain ⟨m, hnext, hframes, rfl⟩ := h.read_header (by simp [hpc]) (by simp) ht hx
  obtain ⟨hformed, hfirst, -⟩ := h.next hnext
  have hsize := hformed.payload_size
  have hpos := hformed.pos
  have hheader : w.runner.headerReceived m.header = w.runner.go (.receivePayload m.header) := by
    have hle : m.header.payload_size.toNat ≤ readySize := by
      rw [hsize, hformed.1]
      rcases hfirst rfl with ht | ht <;> rw [ht] <;> decide
    have hne : m.header.payload_size ≠ 0 := by
      intro h0
      rw [h0] at hsize
      exact absurd hsize (Nat.ne_of_lt hpos)
    rw [Runner.headerReceived, if_neg (Nat.not_lt.2 hle), if_neg hne]
  refine ⟨some m, ?_⟩
  rw [SandboxMessageHeader.ofBytes_bytes, hheader]
  exact h.advance hframes h.split h.decoded (.opening rfl hopen) h.unfinished (.inl ⟨rfl, rfl⟩)
    (by rintro ⟨⟩) fun _ => by simp [hpc]

/-- The payload of the first message. -/
theorem Live.opening (h : Live ms [] unread (some m) w)
    (hpc : w.runner.pc = .receivePayload m.header) (hopen : w.runner.control_open = true)
    (hx : ∀ e, x ≠ .fail e) (ht : Runner.step w x = some w') : Session ms w' := by
  simp only [Runner.step, hpc] at ht
  obtain ⟨hformed, hfirst, -⟩ := h.next h.wire.frames.next_of_begun
  obtain ⟨rest, hu, hframes, rfl⟩ := h.read_payload (by simp [hpc]) hformed.payload_size ht hx
  have hms : ms = m :: rest := by rw [h.split, hu, List.nil_append]
  have hdecoded : w.runner.decoded = [] := h.decoded
  rcases hfirst rfl with htype | htype
  · refine .inr ⟨h.wire.formed, ⟨[m], ⟨rest, hms.symm⟩, ?_, .inr ⟨[], m, rfl, htype⟩⟩, ?_, ?_⟩
    · simp [Runner.received, Runner.dispatch, Runner.decode, Message.header, htype, hdecoded,
        Message.pair, Runner.go, Runner.closeControl]
    · simp [Runner.received, Runner.dispatch, Message.header, htype, Runner.go,
        Runner.closeControl]
    · refine .failed ⟨m, by simp [hms], htype⟩ (.inl ?_)
      simp [Runner.received, Runner.dispatch, Message.header, htype, Runner.go]
  · have hreceived : w.runner.received m.header m.payload =
        { w.runner.decode m.type.code m.payload with stdin_open := w.runner.input ≠ [] }.go
          .loop := by
      have hne : SandboxMessageType.ready.code ≠ SandboxMessageType.setupFailed.code := by decide
      simp [Runner.received, Runner.dispatch, Message.header, htype, hne, Runner.decode]
    refine .inl ⟨[m], rest, none, ?_⟩
    rw [hreceived]
    exact h.advance hframes hms (by simp [Runner.go, Runner.decode, hdecoded, Message.pair])
      (.looping htype rfl hopen) h.unfinished (.inl ⟨rfl, rfl⟩) (by rintro ⟨⟩)
      fun _ => by simp [hpc]

/-- The header of the terminal message. -/
theorem Live.readHeader (h : Live ms [m] unread none w) (hm : m.type = .ready)
    (hpc : w.runner.pc = .readHeader) (hopen : w.runner.control_open = true)
    (hx : ∀ e, x ≠ .fail e) (ht : Runner.step w x = some w') :
    ∃ begun', Live ms [m] unread begun' w' := by
  simp only [Runner.step, hpc] at ht
  obtain ⟨m', hnext, hframes, rfl⟩ := h.read_header (by simp [hpc]) (by simp) ht hx
  obtain ⟨hformed, -, hlater⟩ := h.next hnext
  have hsize : m'.header.payload_size.toNat = m'.type.payloadSize :=
    hformed.payload_size.trans hformed.1
  refine ⟨some m', ?_⟩
  rw [SandboxMessageHeader.ofBytes_bytes]
  rcases hlater m rfl hm with htype | htype
  · have hcode : m'.header.type = SandboxMessageType.setupFailed.code :=
      congrArg SandboxMessageType.code htype
    have hheader : w.runner.handleHeader m'.header = w.runner.go .readSetupFailed := by
      have hsize' : m'.header.payload_size.toNat = setupFailedSize := by rw [hsize, htype]; rfl
      rw [Runner.handleHeader, if_pos hcode, if_neg (not_not.2 hsize')]
    rw [hheader]
    exact h.advance hframes h.split h.decoded (.failing hm htype rfl hopen) h.unfinished
      (.inl ⟨rfl, rfl⟩) (by rintro ⟨⟩) fun _ => by simp [hpc]
  · have hcode : m'.header.type = SandboxMessageType.terminated.code :=
      congrArg SandboxMessageType.code htype
    have hheader : w.runner.handleHeader m'.header = w.runner.go .readTerminated := by
      have hsize' : m'.header.payload_size.toNat = terminatedSize := by rw [hsize, htype]; rfl
      rw [Runner.handleHeader, if_neg (by rw [hcode]; decide), if_pos hcode,
        if_neg (not_not.2 hsize')]
    rw [hheader]
    exact h.advance hframes h.split h.decoded (.ending hm htype rfl hopen) h.unfinished
      (.inl ⟨rfl, rfl⟩) (by rintro ⟨⟩) fun _ => by simp [hpc]

/-- The payload of `SetupFailed` in the loop. -/
theorem Live.failing {m' : Message} (h : Live ms [m] unread (some m') w)
    (hm' : m'.type = .setupFailed) (hpc : w.runner.pc = .readSetupFailed)
    (hx : ∀ e, x ≠ .fail e) (ht : Runner.step w x = some w') : Settled ms w' := by
  simp only [Runner.step, hpc] at ht
  have hformed := (h.next h.wire.frames.next_of_begun).1
  have hsize : setupFailedSize = m'.payload.length := by rw [hformed.1, hm']; rfl
  obtain ⟨rest, hu, -, rfl⟩ := h.read_payload (by simp [hpc]) hsize ht hx
  have hms : ms = [m, m'] ++ rest := by rw [h.split, hu]; rfl
  refine ⟨h.wire.formed, ⟨[m, m'], ⟨rest, hms.symm⟩, ?_, .inr ⟨[m], m', rfl, hm'⟩⟩, rfl,
    .failed ⟨m', by simp [hms], hm'⟩ (.inr (.inl rfl))⟩
  simp [Runner.handleSetupFailed, Runner.go, Runner.closeControl, Runner.decode, h.decoded,
    Message.pair, hm']

/-- The payload of `Terminated`, which is the last message. -/
theorem Live.ending {m' : Message} (h : Live ms [m] unread (some m') w) (hm : m.type = .ready)
    (hm' : m'.type = .terminated) (hpc : w.runner.pc = .readTerminated)
    (hx : ∀ e, x ≠ .fail e) (ht : Runner.step w x = some w') : Settled ms w' := by
  simp only [Runner.step, hpc] at ht
  have hformed := (h.next h.wire.frames.next_of_begun).1
  have hsize : terminatedSize = m'.payload.length := by rw [hformed.1, hm']; rfl
  obtain ⟨rest, hu, -, rfl⟩ := h.read_payload (by simp [hpc]) hsize ht hx
  have hms : ms = m :: m' :: rest := by rw [h.split, hu]; rfl
  have hrest : rest = [] := by
    have hlast := h.wire.last
    rw [hms, List.pairwise_cons, List.pairwise_cons] at hlast
    exact List.eq_nil_iff_forall_not_mem.2 fun m'' hmem => hlast.2.1 m'' hmem hm'
  subst hrest
  have hno : ∀ m'' ∈ ms, m''.type ≠ .setupFailed := by
    simp [hms, hm, hm']
  refine ⟨h.wire.formed, ⟨[m, m'], hms ▸ List.prefix_rfl, ?_, .inl hms.symm⟩, rfl,
    .ended ⟨m', by simp [hms], hm'⟩ hno (.inl ⟨rfl, rfl, h.manned.unreaped⟩)⟩
  simp [Runner.handleTerminated, Runner.go, Runner.closeControl, Runner.decode, h.decoded,
    Message.pair, hm']

theorem Runner.looping_afterPoll (r : Runner) :
    r.afterPoll.pc.looping = true ∧ r.afterPoll.pc ≠ .sendTerminate := by
  grind -linarith

/-- The rest of the loop neither takes a message nor leaves the loop. -/
theorem Live.looping (h : Live ms [m] unread none w) (hm : m.type = .ready)
    (hpc : w.runner.pc.looping = true) (hheader : w.runner.pc ≠ .readHeader)
    (hopen : w.runner.control_open = true) (hx : attended w (.runner x) = true)
    (hu : unheard w (.runner x) = false) (ht : Runner.step w x = some w') :
    Live ms [m] unread none w' := by
  have hsetup : ∀ n, w.runner.pc ≠ .setup n := by
    intro n hn
    simp [hn, RunnerPc.looping] at hpc
  have hunfinished := h.unfinished
  have hstay {r : Runner} {i o e : Channel Byte} (hr : r.decoded = w.runner.decoded ∧
      r.pc.looping = true ∧ r.control_open = true ∧
      r.submission_finished = w.runner.submission_finished ∧
      r.termination_requested = w.runner.termination_requested ∧
      (r.pc = .sendTerminate → r.termination_requested = false)) :
      Live ms [m] unread none { w with runner := r, stdin := i, stdout := o, stderr := e } :=
    h.stay hr.1 (.looping hm hr.2.1 hr.2.2.1) hr.2.2.2.1 hr.2.2.2.2.1 hr.2.2.2.2.2 fun _ => hsetup
  cases Runner.moves ht with
  | again => exact h
  | got site | lost site => cases site <;> simp_all [RunnerPc.looping]
  | sent site hpeer =>
    cases site with
    | deadline hpc' =>
      exact h.advance h.wire.frames h.split h.decoded (.looping hm rfl hopen) hunfinished
        (.inr ⟨h.asking hpc', rfl, rfl⟩) (by rintro ⟨⟩) fun _ => hsetup
    | cleanup hpc' => simp [hpc', RunnerPc.looping] at hpc
  | sendFailed site hx' =>
    cases site with
    | deadline hpc' =>
      rcases hx' with ⟨e, rfl⟩ | ⟨rfl, hpeer⟩
      · simp [attended, hpc'] at hx
      · simp [unheard, hpc', hpeer] at hu
    | cleanup hpc' => simp [hpc', RunnerPc.looping] at hpc
  | waited site | waitFailed site => cases site <;> simp_all [RunnerPc.looping]
  | looped | wrote | brokenStdin | gotStdout | gotStderr =>
    refine hstay ?_
    clear h hstay hx hu ht
    grind -linarith
  | @polled _ revents =>
    have hnext := Runner.looping_afterPoll { w.runner with revents }
    refine hstay ⟨?_, hnext.1, ?_, ?_, ?_, fun hpc => absurd hpc hnext.2⟩ <;>
      clear h hstay hx hu ht <;> grind -linarith
  | @ioFailed e =>
    obtain ⟨he, hpc'⟩ : e = EPIPE ∧ w.runner.pc = .writeStdin := by simpa [attended] using hx
    have hbroken : Runner.step w (.fail EPIPE) =
        some { w with runner := w.runner.brokenStdin } := by
      simp [Runner.step, hpc', Runner.writeStdin, EPIPE, EINTR]
    rw [he, hbroken] at ht
    rw [← Option.some.inj ht]
    refine hstay ?_
    clear h hstay hx hu ht
    grind -linarith
  | _ => clear h hstay hx hu ht; grind -linarith

theorem Live.runner (h : Live ms taken unread begun w) (hl : Lineage w)
    (hx : attended w (.runner x) = true) (hu : unheard w (.runner x) = false)
    (ht : Runner.step w x = some w') : Session ms w' := by
  have hattends := h.attends
  cases hattends with
  | @setup n hpc hopen =>
    have hx := ne_fail_of_attended hx (by simp [hpc])
    exact .inl ⟨_, _, _, h.setup hl hpc hopen hx (by simpa [Runner.step, hpc] using ht)⟩
  | awaiting hpc hopen =>
    obtain ⟨begun', h'⟩ := h.awaiting hpc hopen (ne_fail_of_attended hx (by simp [hpc])) ht
    exact .inl ⟨_, _, _, h'⟩
  | opening hpc hopen =>
    exact h.opening hpc hopen (ne_fail_of_attended hx (by simp [hpc])) ht
  | looping hm hpc hopen =>
    by_cases hheader : w.runner.pc = .readHeader
    · have hx := ne_fail_of_attended hx (by simp [hheader])
      obtain ⟨begun', h'⟩ := h.readHeader hm hheader hopen hx ht
      exact .inl ⟨_, _, _, h'⟩
    · exact .inl ⟨_, _, _, h.looping hm hpc hheader hopen hx hu ht⟩
  | failing hm hm' hpc =>
    exact .inr (h.failing hm' hpc (ne_fail_of_attended hx (by simp [hpc])) ht)
  | ending hm hm' hpc =>
    exact .inr (h.ending hm hm' hpc (ne_fail_of_attended hx (by simp [hpc])) ht)

/-! ## The steps of the others -/

theorem Live.open_of_born (h : Live ms taken unread begun w) (hl : Lineage w)
    (hborn : w.sup.pc ≠ .unborn) : w.runner.control_open = true := by
  cases h.attends with
  | setup hpc => exact absurd (hl.unforked ⟨_, hpc⟩) hborn
  | awaiting _ hopen | opening _ hopen | looping _ _ hopen | failing _ _ _ hopen
  | ending _ _ _ hopen => exact hopen

/-- A step of the others, which completes the messages `more`. -/
theorem Live.others (h : Live ms taken unread begun w) (hrunner : w'.runner = w.runner)
    (more : List Message) (hwire : Wire (ms ++ more) (unread ++ more) begun w')
    (hmanned : Manned w') (htoSup : w.toSup.pending = [] → w'.toSup.pending = [])
    (hborn : w.sup.pc ≠ .unborn → w'.sup.pc ≠ .unborn) :
    Live (ms ++ more) taken (unread ++ more) begun w' := by
  refine ⟨hwire, hmanned, by rw [h.split, List.append_assoc], ?_, ?_, ?_, ?_, ?_, ?_⟩ <;>
    rw [hrunner]
  · exact h.decoded
  · exact h.attends
  · exact h.unfinished
  · exact fun hasked => htoSup (h.unasked hasked)
  · exact h.asking
  · exact fun hsetup => hborn (h.born hsetup)

/-- A step that leaves the runner, the supervisor and Child A alone. -/
theorem Live.quiet (h : Live ms taken unread begun w) (hrunner : w'.runner = w.runner)
    (hsup : w'.sup = w.sup) (hA : w'.childA = w.childA) (htoRunner : w'.toRunner = w.toRunner)
    (htoSup : w'.toSup = w.toSup) (hcgroup : w'.cgroup = w.cgroup) (hkilled : w'.killed = w.killed)
    (hreaped : w'.reaped = w.reaped) : Live ms taken unread begun w' := by
  have hwire : Wire ms unread begun w' := by
    refine h.wire.quiet htoRunner (by simp [World.half, hsup, hA]) (by rw [hsup])
      (by rw [hsup]; exact fun _ => id) (by rw [hA]; exact fun _ => id) ?_
    obtain ⟨hs, hc, h1⟩ := h.wire.senders
    exact ⟨by rwa [hsup], by rwa [hA], by rwa [hsup, hA]⟩
  have hmanned := h.manned.runner hsup hA hcgroup hkilled hreaped (.inl htoSup)
  simpa using h.others hrunner [] (by simpa using hwire) hmanned (by rw [htoSup]; exact id)
    (by rw [hsup]; exact id)

/-- The supervisor is at work. -/
theorem Live.proper (h : Live ms taken unread begun w) (hl : Lineage w) (hi : Listening w)
    (hx : attended w (.supervisor x) = true) (hcut : cutShort w (.supervisor x) = false)
    (ht : Supervisor.step w x = some w') : Supervisor.Proper w x w' := by
  have hborn : w.sup.pc ≠ .unborn := fun hu => by simp [Supervisor.step, hu] at ht
  have hopen := h.open_of_born hl hborn
  have hfails : x.fails = false := by
    cases x <;> first | rfl | simp [attended] at hx
  refine h.manned.proper hopen hfails (fun n hpc hr => ?_) (Supervisor.moves ht)
  have hok : x = .ok := by
    cases x <;> first | rfl | simp_all [Supervisor.step, Supervisor.readStatus, Answer.fails]
  have := hi.truncated_of_error hpc hr
  rw [cutShort, hok, this] at hcut
  cases hcut

theorem Live.supervisor (h : Live ms taken unread begun w) (hl : Lineage w) (hi : Listening w)
    (hx : attended w (.supervisor x) = true) (htorn : torn w (.supervisor x) = false)
    (hcut : cutShort w (.supervisor x) = false) (ht : Supervisor.step w x = some w') :
    Live (ms ++ completed w (.supervisor x)) taken (unread ++ completed w (.supervisor x)) begun
      w' := by
  have hm := Supervisor.moves ht
  have hborn : w.sup.pc ≠ .unborn := fun hu => by simp [Supervisor.step, hu] at ht
  have hopen := h.open_of_born hl hborn
  have hp := h.proper hl hi hx hcut ht
  refine h.others hm.runner _ (h.wire.supervisor hl h.manned.waited htorn hopen hp)
    (h.manned.supervisor hp) (fun hempty => ?_) hm.born
  cases hp with
  | gotOrder => simp [hempty]
  | _ => exact hempty

/-- A call that does not strike Child A is repeated, or does not fail where it
would. -/
theorem again_of_not_struck (hs : struck w (.childA x) = false) (ht : ChildA.step w x = some w')
    (hfails : x.fails = true)
    (hpc : w.childA = .awaitRelease ∨ ∃ writes, w.childA = .report true writes) : w' = w := by
  cases x with
  | fail e =>
    rcases hpc with hpc | ⟨writes, hpc⟩
    · obtain rfl : e = EINTR := by simpa [struck, hpc] using hs
      simpa [ChildA.step, hpc, eq_comm] using ht
    · obtain rfl : e = EINTR := by simpa [struck, hpc] using hs
      cases writes with
      | nil => simp [ChildA.step, hpc] at ht
      | cons chunk rest => simpa [ChildA.step, ChildA.reportStep, hpc, eq_comm] using ht
  | _ => cases hfails

theorem Live.childA (h : Live ms taken unread begun w) (hl : Lineage w)
    (hs : struck w (.childA x) = false) (htorn : torn w (.childA x) = false)
    (ht : ChildA.step w x = some w') :
    Live (ms ++ completed w (.childA x)) taken (unread ++ completed w (.childA x)) begun w' := by
  by_cases hagain : x.fails = true ∧
      (w.childA = .awaitRelease ∨ ∃ writes, w.childA = .report true writes)
  · have hno : completed w (.childA x) = [] := by
      cases x <;> first | rfl | simp [Answer.fails] at hagain
    rw [again_of_not_struck hs ht hagain.1 hagain.2, hno, List.append_nil, List.append_nil]
    exact h
  · have hfails (hpc : w.childA = .awaitRelease ∨ ∃ writes, w.childA = .report true writes) :
        x.fails = false := by
      cases hf : x.fails with
      | false => rfl
      | true => exact absurd ⟨hf, hpc⟩ hagain
    have hm := ChildA.moves ht
    have hopen (hA : w.childA ≠ .unborn) : w.runner.control_open = true := by
      refine h.open_of_born hl fun hu => hA (hl.unborn ?_)
      rw [hu]
      rfl
    exact h.others hm.runner _ (h.wire.childA (fun hpc => hfails (.inr hpc)) htorn hopen hm)
      (h.manned.childA (fun hpc => hfails (.inl hpc)) hl hm) (by rw [hm.toSup]; exact id)
      (by rw [hm.sup]; exact id)

/-- Child A is killed while it does not write to the control socket. -/
theorem Live.diedA (h : Live ms taken unread begun w) (hk : w.killed.childA = true)
    (ha : w.childA.alive = true) (htorn : torn w (.die .childA) = false) {s : Word32} :
    Live ms taken unread begun { w with childA := .exited s } := by
  have hnone : w.childA.half = none := by simpa [torn] using htorn
  have hwire : Wire ms unread begun { w with childA := .exited s } := by
    refine h.wire.quiet rfl (by rw [World.half, World.half, hnone]; rfl) rfl (fun _ => id)
      (fun s' hs => ?_) ⟨h.wire.senders.sup, by rintro _ ⟨⟩, .inr rfl⟩
    simp [hs, ChildA.alive] at ha
  have hmanned : Manned { w with childA := .exited s } := by
    obtain ⟨hsound, hhold, hearly, hatt, hunw, hwaited, hords, hord, hunk, hunr⟩ := h.manned
    constructor <;> grind -linarith
  have hlive : Live (ms ++ []) taken (unread ++ []) begun { w with childA := .exited s } := by
    refine h.others ?_ [] (by simpa using hwire) hmanned id id
    rfl
  simpa using hlive

end

/-! ## After the terminal message -/

section
variable {ms : List Message}

theorem wait_cases {yes no : Runner} (h : Runner.waitSupervisor w yes no x = some w')
    (hx : ∀ e, x ≠ .fail e) :
    w.reaped.supervisor = false ∧ w'.runner = yes ∨
      w.reaped.supervisor = true ∧ w'.runner = no := by
  cases x <;> simp only [Runner.waitSupervisor, reduceCtorEq] at h
  · split at h
    · split at h <;> cases h
      · rename_i hr
        exact .inr ⟨hr, rfl⟩
      · rename_i hr
        exact .inl ⟨by simpa using hr, rfl⟩
    · cases h
  · exact absurd rfl (hx _)

theorem Settled.runner (h : Settled ms w) (hx : attended w (.runner x) = true)
    (ht : Runner.step w x = some w') : Settled ms w' := by
  obtain ⟨hformed, ⟨taken, htaken, hdecoded, hall⟩, hclosed, hterminal⟩ := h
  cases hterminal with
  | failed hm hpc =>
    have hx := ne_fail_of_attended hx (by rcases hpc with hpc | hpc | ⟨hpc, -⟩ <;> simp [hpc])
    have hr : w'.runner.decoded = w.runner.decoded ∧ w'.runner.control_open = false ∧
        w'.runner.pc = .returned ∧ w'.runner.result.status = .sandboxFailure := by
      rcases hpc with hpc | hpc | ⟨hpc, -⟩ <;> simp only [Runner.step, hpc, reduceCtorEq] at ht <;>
        rcases wait_cases ht hx with ⟨-, hr⟩ | ⟨-, hr⟩ <;> rw [hr] <;>
        exact ⟨rfl, hclosed, rfl, rfl⟩
    exact ⟨hformed, ⟨taken, htaken, hr.1.trans hdecoded, hall⟩, hr.2.1,
      .failed hm (.inr (.inr hr.2.2))⟩
  | ended hm hno hpc =>
    have hx := ne_fail_of_attended hx
      (by rcases hpc with ⟨hpc, -⟩ | ⟨hpc, -⟩ | ⟨hpc, -⟩ <;> simp [hpc])
    rcases hpc with ⟨hpc, hfinished, hreaped⟩ | ⟨hpc, hfinished, hflag, hin, hout, herr⟩ | ⟨hpc, -⟩
    · simp only [Runner.step, hpc] at ht
      rcases wait_cases ht hx with ⟨-, hr⟩ | ⟨hr, -⟩
      · refine ⟨hformed, ⟨taken, htaken, ?_, hall⟩, ?_, .ended hm hno (.inr (.inl ?_))⟩ <;>
          clear ht <;> grind -linarith
      · simp [hreaped] at hr
    · have hnext : w.runner.nextIteration w.clock = w.runner.finish := by
        simp [Runner.nextIteration, hfinished, hflag, hin, hout, herr]
      cases x <;> simp only [Runner.step, hpc, Runner.loopHead, reduceCtorEq] at ht
      cases ht
      rw [hnext]
      refine ⟨hformed, ⟨taken, htaken, hdecoded, hall⟩, hclosed,
        .ended hm hno (.inr (.inr ⟨rfl, ?_⟩))⟩
      simp only [Runner.finish, Runner.give, ExecutionResult.classify]
      split
      · exact .inr (.inr rfl)
      · split
        · exact .inr (.inl rfl)
        · exact .inl rfl
    · simp [Runner.step, hpc] at ht

theorem Settled.keep (h : Settled ms w) (ho : orderly w a = true) (ht : step w a = some w') :
    Settled ms w' := by
  rcases (moves_step ht).runner_or_apart with ⟨x, rfl, -⟩ | ⟨hrunner, -, hreaped⟩
  · refine h.runner ?_ ht
    simp only [orderly, Bool.and_eq_true] at ho
    exact ho.1.1.1.1
  · obtain ⟨hformed, hdecoded, hclosed, hterminal⟩ := h
    refine ⟨hformed, by rwa [hrunner], by rwa [hrunner], ?_⟩
    cases hterminal with
    | failed hm hpc => exact .failed hm (by rwa [hrunner])
    | ended hm hno hpc => exact .ended hm hno (by rwa [hrunner, hreaped])

theorem Settled.completed_eq_nil (h : Settled ms w) : completed w a = [] := by
  have hclosed := h.closed
  unfold completed
  split <;> simp [hclosed]

end

/-! ## The whole run -/

theorem Live.keep {ms taken unread : List Message} {begun : Option Message}
    (h : Live ms taken unread begun w) (hl : Lineage w) (hi : Listening w)
    (ho : orderly w a = true) (ht : step w a = some w') : Session (ms ++ completed w a) w' := by
  simp only [orderly, Bool.and_eq_true, Bool.not_eq_true'] at ho
  obtain ⟨⟨⟨⟨hattended, hstruck⟩, htorn⟩, hcut⟩, hunheard⟩ := ho
  cases a with
  | runner x =>
    rw [show completed w (.runner x) = [] from rfl, List.append_nil]
    exact h.runner hl hattended hunheard ht
  | supervisor x => exact .inl ⟨_, _, _, h.supervisor hl hi hattended htorn hcut ht⟩
  | childA x => exact .inl ⟨_, _, _, h.childA hl hstruck htorn ht⟩
  | childB x =>
    have hm := ChildB.moves ht
    rw [show completed w (.childB x) = [] from rfl, List.append_nil]
    exact .inl ⟨_, _, _, h.quiet hm.runner hm.sup hm.childA hm.toRunner hm.toSup hm.cgroup hm.killed
      hm.reaped⟩
  | tick ns =>
    cases ht
    rw [show completed w (.tick ns) = [] from rfl, List.append_nil]
    exact .inl ⟨_, _, _, h.quiet rfl rfl rfl rfl rfl rfl rfl rfl⟩
  | submission d =>
    rw [show completed w (.submission d) = [] from rfl, List.append_nil]
    refine .inl ⟨taken, unread, begun, ?_⟩
    cases moves_submission ht <;> exact h.quiet rfl rfl rfl rfl rfl rfl rfl rfl
  | die p =>
    rw [show completed w (.die p) = [] from rfl, List.append_nil]
    refine .inl ⟨taken, unread, begun, ?_⟩
    cases moves_step ht with
    | diedSupervisor hk => simp [h.manned.unkilled] at hk
    | diedA hk ha => exact h.diedA hk ha htorn
    | diedB => exact h.quiet rfl rfl rfl rfl rfl rfl rfl rfl

theorem Session.keep {ms : List Message} (h : Session ms w) (hl : Lineage w) (hi : Listening w)
    (ho : orderly w a = true) (ht : step w a = some w') : Session (ms ++ completed w a) w' := by
  rcases h with ⟨taken, unread, begun, h⟩ | h
  · exact h.keep hl hi ho ht
  · rw [h.completed_eq_nil, List.append_nil]
    exact .inr (h.keep ho ht)

theorem Session.init (q : Request) : Session [] (.init q) := by
  refine .inl ⟨[], [], none, ⟨?_, ?_, rfl, rfl, .setup rfl nofun, rfl, fun _ => rfl, nofun,
    fun hpc => absurd rfl (hpc 0)⟩⟩
  · exact ⟨FrameFormat.Frames.init, nofun, trivial, Nat.zero_le _, nofun, nofun, .nil,
      ⟨nofun, nofun, .inl rfl⟩⟩
  · constructor <;> simp [World.init, SupervisorPc.sound, SupervisorPc.holding, SupervisorPc.phase,
      SupervisorPc.beforeWait]

/-- What an orderly run keeps. -/
theorem Session.reach (h : Runs q acts w)
    (ho : Machine.Along step (fun s a => orderly s a = true) (.init q) acts) :
    Session (Machine.collect step completed (.init q) acts) w := by
  have := Machine.run_collect (f := completed)
    (I := fun ms s => Lineage s ∧ Listening s ∧ Session ms s)
    (fun ms s a t ho ⟨hl, hi, hs⟩ ht =>
      ⟨hl.keep (moves_step ht), hi.keep hl (moves_step ht), hs.keep hl hi ho ht⟩)
    ⟨.init q, .init q, .init q⟩ ho h
  exact this.2.2

end OnlineJudge
