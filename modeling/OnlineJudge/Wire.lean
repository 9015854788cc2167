import OnlineJudge.Lib.Frames
import OnlineJudge.Manned

/-!
# The control socket as a wire

The supervisor and Child A write messages to the control socket, header and
payload apart. As long as no message is written into the middle of another one,
what waits there are the completed messages that the runner has not taken, in
order.
-/

namespace OnlineJudge

variable {q : Request} {acts : List Act} {w w' : World} {x : Answer} {a : Act}

/-! ## Messages as frames -/

def SandboxMessageType.payloadSize : SandboxMessageType → Nat
  | ready => readySize
  | setupFailed => setupFailedSize
  | terminated => terminatedSize
  | terminate => 0

namespace Message

/-- The type goes with the size of the payload. -/
def Formed (m : Message) : Prop :=
  m.payload.length = m.type.payloadSize ∧ m.type ≠ .terminate

def format : FrameFormat Byte Message where
  header m := m.header.bytes
  payload := Message.payload
  size := headerSize
  length_header m := SandboxMessageHeader.length_bytes m.header
  size_pos := by decide

/-- What the runner keeps of a message. -/
def pair (m : Message) : Word32 × List Byte := (m.type.code, m.payload)

theorem Formed.payload_size {m : Message} (h : m.Formed) :
    m.header.payload_size.toNat = m.payload.length := by
  obtain ⟨hlen, -⟩ := h
  simp only [header, BitVec.toNat_ofNat]
  refine Nat.mod_eq_of_lt ?_
  rw [hlen]
  cases m.type <;> decide

theorem Formed.pos {m : Message} (h : m.Formed) : 0 < m.payload.length := by
  obtain ⟨hlen, hne⟩ := h
  rw [hlen]
  cases hm : m.type <;> simp_all [SandboxMessageType.payloadSize, readySize, setupFailedSize,
    terminatedSize]

theorem Formed.writes {m : Message} (h : m.Formed) : m.writes = [m.header.bytes, m.payload] := by
  have hne : m.payload ≠ [] := List.ne_nil_of_length_pos h.pos
  simp [Message.writes, hne]

theorem formed_ready (p : SandboxReadyPayload) : (ready p).Formed := by
  simp [Formed, ready, SandboxMessageType.payloadSize]

theorem formed_setupFailed (p : SandboxSetupFailedPayload) : (setupFailed p).Formed := by
  simp [Formed, setupFailed, SandboxMessageType.payloadSize]

theorem formed_terminated (p : SandboxTerminatedPayload) : (terminated p).Formed := by
  simp [Formed, terminated, SandboxMessageType.payloadSize]

end Message

/-! ## Senders -/

def SendCaller.type : SendCaller → SandboxMessageType
  | prepare | setupFailed => .setupFailed
  | ready => .ready
  | terminated => .terminated

theorem SendCaller.eq_ready {caller : SendCaller} (h : caller.type = .ready) :
    caller = .ready := by
  cases caller <;> first | rfl | cases h

theorem SendCaller.eq_terminated {caller : SendCaller} (h : caller.type = .terminated) :
    caller = .terminated := by
  cases caller <;> first | rfl | cases h

/-- The message of which only the header is written. -/
def SupervisorPc.half : SupervisorPc → Option Message
  | send caller [payload] => some ⟨caller.type, payload⟩
  | _ => none

def ChildA.half : ChildA → Option Message
  | report true [payload] => some ⟨.setupFailed, payload⟩
  | _ => none

def World.half (w : World) : Option Message := w.sup.pc.half.or w.childA.half

/-- The message that is completed by an action. -/
def completed (w : World) : Act → List Message
  | .supervisor .ok => if w.runner.control_open then w.sup.pc.half.toList else []
  | .childA .ok => if w.runner.control_open then w.childA.half.toList else []
  | _ => []

/-- A header is written, or Child A dies, while a message is half written. -/
def torn (w : World) : Act → Bool
  | .supervisor _ => w.sup.pc matches .send _ [_, _] && w.childA.half.isSome
  | .childA _ => w.childA matches .report true [_, _] && w.sup.pc.half.isSome
  | .die .childA => w.childA.half.isSome
  | _ => false

/-- How many messages the supervisor has completed at least. -/
def SupervisorPc.said : SupervisorPc → Nat
  | poll | readControl | openKill _ | writeKill _ | readStatus | waitFailed _ | waitNoHang
  | removeCgroup _ _ | send .setupFailed _ | send .terminated _ => 1
  | exited _ => 2
  | _ => 0

/-- The senders only hold whole messages, or the payload of one. -/
structure Senders (w : World) : Prop where
  sup : ∀ caller writes, w.sup.pc = .send caller writes →
    ∃ m : Message, m.Formed ∧ m.type = caller.type ∧
      (writes = [m.header.bytes, m.payload] ∨ writes = [m.payload])
  childA : ∀ writes, w.childA = .report true writes →
    ∃ m : Message, m.Formed ∧ m.type = .setupFailed ∧
      (writes = [m.header.bytes, m.payload] ∨ writes = [m.payload])
  single : w.sup.pc.half = none ∨ w.childA.half = none

/-- A first message of type `Ready` is followed by terminal messages only. -/
def WellBegun : List Message → Prop
  | [] => True
  | m :: rest => m.type = .setupFailed ∨
    m.type = .ready ∧ ∀ m' ∈ rest, m'.type = .setupFailed ∨ m'.type = .terminated

theorem WellBegun.append {ms : List Message} {m : Message} (h : WellBegun ms) (hm : m.Formed)
    (hfirst : ms = [] → m.type ≠ .terminated)
    (hready : m.type = .ready → ∀ m' ∈ ms, m'.type ≠ .ready) : WellBegun (ms ++ [m]) := by
  have hne := hm.2
  cases ms with
  | nil =>
    have := hfirst rfl
    cases ht : m.type <;> simp_all [WellBegun]
  | cons first rest =>
    rcases h with h | ⟨h, hrest⟩
    · exact .inl h
    · refine .inr ⟨h, fun m' hm' => ?_⟩
      rcases List.mem_append.1 hm' with hm' | hm'
      · exact hrest m' hm'
      · rcases List.mem_singleton.1 hm' with rfl
        cases ht : m'.type with
        | ready => exact absurd h (hready ht first List.mem_cons_self)
        | setupFailed => exact .inl rfl
        | terminated => exact .inr rfl
        | terminate => exact absurd ht hne

/-! ## The wire -/

/-- `ms` are the messages completed so far, `unread` those of them that the
runner has not taken, and `begun` is the one of which it has the header. -/
structure Wire (ms unread : List Message) (begun : Option Message) (w : World) : Prop where
  frames : Message.format.Frames w.toRunner unread w.half begun
  formed : ∀ m ∈ ms, m.Formed
  begins : WellBegun (ms ++ w.half.toList)
  said : w.sup.pc.said ≤ ms.length
  silent : w.sup.pc.said = 0 → ∀ m ∈ ms, m.type ≠ .ready
  final : ∀ m ∈ ms, m.type = .terminated →
    (∃ s, w.sup.pc = .exited s) ∧ ∃ s, w.childA = .exited s
  last : ms.Pairwise fun m _ => m.type ≠ .terminated
  senders : Senders w

attribute [grind =] SupervisorPc.half ChildA.half SupervisorPc.said SendCaller.type

namespace Wire

variable {ms unread : List Message} {begun : Option Message}

/-- A step that writes nothing and takes nothing. -/
theorem quiet (h : Wire ms unread begun w) (ht : w'.toRunner = w.toRunner)
    (hhalf : w'.half = w.half) (hsaid : w'.sup.pc.said = w.sup.pc.said)
    (hexit : ∀ s, w.sup.pc = .exited s → w'.sup.pc = .exited s)
    (hexitA : ∀ s, w.childA = .exited s → w'.childA = .exited s) (hs : Senders w') :
    Wire ms unread begun w' :=
  ⟨by rw [ht, hhalf]; exact h.frames, h.formed, by rw [hhalf]; exact h.begins,
    by rw [hsaid]; exact h.said, by rw [hsaid]; exact h.silent,
    fun m hm htm => (h.final m hm htm).imp (.imp hexit) (.imp hexitA), h.last, hs⟩

theorem last_append {m : Message} (h : ms.Pairwise fun m _ => m.type ≠ .terminated)
    (hno : ∀ m' ∈ ms, m'.type ≠ .terminated) :
    (ms ++ [m]).Pairwise fun m _ => m.type ≠ .terminated :=
  List.pairwise_append.2 ⟨h, List.pairwise_singleton _ _, fun m' hm' _ _ => hno m' hm'⟩

/-- The supervisor writes a header. -/
theorem sent_header {caller : SendCaller} {m : Message} (h : Wire ms unread begun w)
    (hpc : w.sup.pc = .send caller [m.header.bytes, m.payload]) (hm : m.Formed)
    (htype : m.type = caller.type) (hA : w.childA.half = none) :
    Wire ms unread begun { w with
      toRunner := w.toRunner.put m.header.bytes
      sup := w.sup.go (.send caller [m.payload]) } := by
  obtain ⟨hframes, hformed, hbegins, hsaid, hsilent, hfinal, hlast, hsend⟩ := h
  have hnone : w.half = none := by simp [World.half, hpc, SupervisorPc.half, hA]
  have hsome : (SupervisorPc.send caller [m.payload]).half = some m := by
    simp [SupervisorPc.half, ← htype]
  have hsaid' : (SupervisorPc.send caller [m.payload]).said = w.sup.pc.said := by
    rw [hpc]
    cases caller <;> rfl
  rw [hnone] at hframes hbegins
  refine ⟨?_, hformed, ?_, ?_, ?_, ?_, hlast, ⟨?_, hsend.childA, .inr hA⟩⟩
  · simp only [World.half, Supervisor.go, hsome, Option.some_or]
    exact hframes.put_header
  · simp only [World.half, Supervisor.go, hsome, Option.some_or, Option.toList_some]
    refine WellBegun.append (by simpa using hbegins) hm (fun hms hterm => ?_) fun hready => ?_
    · rw [hms, hpc, SendCaller.eq_terminated (htype.symm.trans hterm)] at hsaid
      simp [SupervisorPc.said] at hsaid
    · refine hsilent ?_
      rw [hpc, SendCaller.eq_ready (htype.symm.trans hready)]
      rfl
  · exact hsaid' ▸ hsaid
  · exact fun h => hsilent (hsaid' ▸ h)
  · intro m' hm' ht
    obtain ⟨⟨s, hs⟩, -⟩ := hfinal m' hm' ht
    simp [hpc] at hs
  · intro caller' writes hpc'
    simp only [Supervisor.go, SupervisorPc.send.injEq] at hpc'
    exact ⟨m, hm, hpc'.1 ▸ htype, .inr hpc'.2.symm⟩

/-- The supervisor completes a message. -/
theorem sent_payload {caller : SendCaller} {m : Message} (h : Wire ms unread begun w)
    (hpc : w.sup.pc = .send caller [m.payload]) (hm : m.Formed)
    (htype : m.type = caller.type) (hcaller : caller ≠ .prepare)
    (hwaited : caller = .terminated → ∃ s, w.childA = .exited s) :
    Wire (ms ++ [m]) (unread ++ [m]) begun { w with
      toRunner := w.toRunner.put m.payload
      sup := w.sup.sendReturned true caller } := by
  obtain ⟨hframes, hformed, hbegins, hsaid, hsilent, hfinal, hlast, hsend⟩ := h
  have hhalf : w.half = some m := by simp [World.half, hpc, SupervisorPc.half, ← htype]
  have hA : w.childA.half = none :=
    hsend.single.resolve_left (by simp [hpc, SupervisorPc.half])
  have hpc' : (w.sup.sendReturned true caller).pc = .poll ∧ caller = .ready ∨
      (∃ s, (w.sup.sendReturned true caller).pc = .exited s) ∧ caller ≠ .ready := by
    cases caller <;> simp [Supervisor.sendReturned, Supervisor.go, Supervisor.exit]
  have hnone : (w.sup.sendReturned true caller).pc.half = none := by
    rcases hpc' with ⟨hp, -⟩ | ⟨⟨s, hp⟩, -⟩ <;> simp [hp, SupervisorPc.half]
  have hno : ∀ m' ∈ ms, m'.type ≠ .terminated := by
    intro m' hm' ht
    obtain ⟨⟨s, hs⟩, -⟩ := hfinal m' hm' ht
    simp [hpc] at hs
  rw [hhalf] at hframes hbegins
  refine ⟨?_, ?_, ?_, ?_, ?_, ?_, last_append hlast hno, ⟨?_, hsend.childA, .inr hA⟩⟩
  · simp only [World.half, hnone, hA, Option.none_or]
    exact hframes.put_payload
  · intro m' hm'
    rcases List.mem_append.1 hm' with hm' | hm'
    · exact hformed m' hm'
    · exact List.mem_singleton.1 hm' ▸ hm
  · simpa [World.half, hnone, hA] using hbegins
  · rw [hpc] at hsaid
    rcases hpc' with ⟨hp, -⟩ | ⟨⟨s, hp⟩, hne⟩
    · simp [hp, SupervisorPc.said]
    · simp only [hp, SupervisorPc.said, List.length_append, List.length_singleton]
      cases caller <;> simp [SupervisorPc.said] at hsaid hne hcaller ⊢ <;> omega
  · rcases hpc' with ⟨hp, -⟩ | ⟨⟨s, hp⟩, -⟩ <;> simp [hp, SupervisorPc.said]
  · intro m' hm' ht
    rcases List.mem_append.1 hm' with hm' | hm'
    · exact absurd ht (hno m' hm')
    · rw [List.mem_singleton.1 hm', htype] at ht
      have hc := SendCaller.eq_terminated ht
      exact ⟨by rw [hc]; exact ⟨_, rfl⟩, hwaited hc⟩
  · intro caller' writes hp
    rcases hpc' with ⟨hp', -⟩ | ⟨⟨s, hp'⟩, -⟩ <;> simp [hp'] at hp

/-- Child A writes a header. -/
theorem told_header {m : Message} (h : Wire ms unread begun w)
    (hpc : w.childA = .report true [m.header.bytes, m.payload]) (hm : m.Formed)
    (htype : m.type = .setupFailed) (hs : w.sup.pc.half = none) :
    Wire ms unread begun { w with
      toRunner := w.toRunner.put m.header.bytes
      childA := .report true [m.payload] } := by
  obtain ⟨hframes, hformed, hbegins, hsaid, hsilent, hfinal, hlast, hsend⟩ := h
  have hnone : w.half = none := by simp [World.half, hpc, ChildA.half, hs]
  have hsome : (ChildA.report true [m.payload]).half = some m := by
    simp [ChildA.half, ← htype]
  rw [hnone] at hframes hbegins
  have hno : ∀ m' ∈ ms, m'.type ≠ .terminated := by
    intro m' hm' ht
    obtain ⟨-, s, hs⟩ := hfinal m' hm' ht
    simp [hpc] at hs
  refine ⟨?_, hformed, ?_, hsaid, hsilent, fun m' hm' ht => absurd ht (hno m' hm'), hlast,
    ⟨hsend.sup, ?_, .inl hs⟩⟩
  · simp only [World.half, hsome, hs, Option.none_or]
    exact hframes.put_header
  · simp only [World.half, hsome, hs, Option.none_or, Option.toList_some]
    exact WellBegun.append (by simpa using hbegins) hm (by simp [htype]) (by simp [htype])
  · intro writes hw
    simp only [ChildA.report.injEq, true_and] at hw
    exact ⟨m, hm, htype, .inr hw.symm⟩

/-- Child A completes its message, and exits. -/
theorem told_payload {m : Message} (h : Wire ms unread begun w)
    (hpc : w.childA = .report true [m.payload]) (hm : m.Formed) (htype : m.type = .setupFailed) :
    Wire (ms ++ [m]) (unread ++ [m]) begun { w with
      toRunner := w.toRunner.put m.payload
      childA := .exited (exitStatus EXIT_FAILURE) } := by
  obtain ⟨hframes, hformed, hbegins, hsaid, hsilent, hfinal, hlast, hsend⟩ := h
  have hsome : w.childA.half = some m := by simp [hpc, ChildA.half, ← htype]
  have hs : w.sup.pc.half = none := hsend.single.resolve_right (by simp [hsome])
  have hhalf : w.half = some m := by simp [World.half, hs, hsome]
  have hno : ∀ m' ∈ ms, m'.type ≠ .terminated := by
    intro m' hm' ht
    obtain ⟨-, s, hs⟩ := hfinal m' hm' ht
    simp [hpc] at hs
  rw [hhalf] at hframes hbegins
  refine ⟨?_, ?_, ?_, ?_, ?_, ?_, last_append hlast hno, ⟨hsend.sup, by rintro _ ⟨⟩, .inr rfl⟩⟩
  · simp only [World.half, hs, ChildA.half, Option.none_or]
    exact hframes.put_payload
  · intro m' hm'
    rcases List.mem_append.1 hm' with hm' | hm'
    · exact hformed m' hm'
    · exact List.mem_singleton.1 hm' ▸ hm
  · simpa [World.half, hs, ChildA.half] using hbegins
  · simp only [List.length_append]
    omega
  · intro hsaid m' hm'
    rcases List.mem_append.1 hm' with hm' | hm'
    · exact hsilent hsaid m' hm'
    · simp [List.mem_singleton.1 hm', htype]
  · intro m' hm' ht
    rcases List.mem_append.1 hm' with hm' | hm'
    · exact absurd ht (hno m' hm')
    · simp [List.mem_singleton.1 hm', htype] at ht

/-- What the supervisor is about to send when it did not send before. -/
theorem senders_supervisor (h : Senders w) (hl : Lineage w)
    (hsend : ¬ ∃ caller chunk rest, w.sup.pc = .send caller (chunk :: rest))
    (hm : Supervisor.Proper w x w') :
    w'.sup.pc.half = none ∧ w'.childA.half = w.childA.half ∧ Senders w' := by
  have hready := fun p => (Message.formed_ready p).writes
  have hfailed := fun p => (Message.formed_setupFailed p).writes
  have hterminated := fun p => (Message.formed_terminated p).writes
  obtain ⟨hsup, hchild, hsingle⟩ := h
  cases hm with
  | @sent caller chunk rest hpc => exact absurd ⟨caller, chunk, rest, hpc⟩ hsend
  | forked hpc =>
    have hA := hl.unborn (by simp [hpc, SupervisorPc.phase])
    exact ⟨rfl, by simp [hA, ChildA.half], ⟨by rintro _ _ ⟨⟩, by rintro _ ⟨⟩, .inl rfl⟩⟩
  | released =>
    refine ⟨by simp [Supervisor.go, hready, SupervisorPc.half], rfl, ⟨fun caller writes hpc => ?_,
      hchild, .inl (by simp [Supervisor.go, hready, SupervisorPc.half])⟩⟩
    simp only [Supervisor.go, SupervisorPc.send.injEq] at hpc
    exact ⟨_, Message.formed_ready _, hpc.1 ▸ rfl, .inl (hpc.2.symm.trans (hready _))⟩
  | removedFailed =>
    refine ⟨by simp [Supervisor.go, hfailed, SupervisorPc.half], rfl, ⟨fun caller writes hpc => ?_,
      hchild, .inl (by simp [Supervisor.go, hfailed, SupervisorPc.half])⟩⟩
    simp only [Supervisor.go, SupervisorPc.send.injEq] at hpc
    exact ⟨_, Message.formed_setupFailed _, hpc.1 ▸ rfl, .inl (hpc.2.symm.trans (hfailed _))⟩
  | removedFinished =>
    refine ⟨by simp [Supervisor.go, hterminated, SupervisorPc.half], rfl, ⟨fun caller writes hpc =>
      ?_, hchild, .inl (by simp [Supervisor.go, hterminated, SupervisorPc.half])⟩⟩
    simp only [Supervisor.go, SupervisorPc.send.injEq] at hpc
    exact ⟨_, Message.formed_terminated _, hpc.1 ▸ rfl, .inl (hpc.2.symm.trans (hterminated _))⟩
  | prepared _ hnext =>
    rcases hnext with rfl | ⟨n, rfl⟩ <;> exact ⟨rfl, rfl, ⟨by rintro _ _ ⟨⟩, hchild, .inl rfl⟩⟩
  | looked _ hnext =>
    rcases hnext with ⟨rfl, -⟩ | rfl | rfl <;>
      exact ⟨rfl, rfl, ⟨by rintro _ _ ⟨⟩, hchild, .inl rfl⟩⟩
  | gotOrder _ hnext =>
    rcases hnext with rfl | rfl | rfl <;> exact ⟨rfl, rfl, ⟨by rintro _ _ ⟨⟩, hchild, .inl rfl⟩⟩
  | killWritten _ hnext =>
    rcases hnext with rfl | rfl <;> exact ⟨rfl, rfl, ⟨by rintro _ _ ⟨⟩, hchild, .inl rfl⟩⟩
  | _ => exact ⟨rfl, rfl, ⟨by rintro _ _ ⟨⟩, hchild, .inl rfl⟩⟩

theorem half_eq_none (h : ¬ ∃ caller chunk rest, w.sup.pc = .send caller (chunk :: rest)) :
    w.sup.pc.half = none := by
  unfold SupervisorPc.half
  split
  · rename_i hpc
    exact absurd ⟨_, _, _, hpc⟩ h
  · rfl

theorem supervisor (h : Wire ms unread begun w) (hl : Lineage w)
    (hwaited : w.sup.pc.beforeWait = false → ∃ s, w.childA = .exited s)
    (ht : torn w (.supervisor x) = false) (hopen : w.runner.control_open = true)
    (hm : Supervisor.Proper w x w') :
    Wire (ms ++ completed w (.supervisor x)) (unread ++ completed w (.supervisor x)) begun w' := by
  by_cases hsend : ∃ caller chunk rest, w.sup.pc = .send caller (chunk :: rest)
  · cases hm with
    | @sent caller chunk rest hpc hcaller hx =>
      subst hx
      obtain ⟨m, hf, htype, hw⟩ := h.senders.sup caller _ hpc
      rcases hw with hw | hw <;> cases hw
      · have hA : w.childA.half = none := by simpa [torn, hpc] using ht
        simpa [completed, hpc, SupervisorPc.half] using h.sent_header hpc hf htype hA
      · simpa [completed, hpc, hopen, SupervisorPc.half, ← htype] using
          h.sent_payload hpc hf htype hcaller fun hc =>
            hwaited (by simp [hpc, hc, SupervisorPc.beforeWait])
    | _ => grind -linarith
  · have hnone := half_eq_none hsend
    have hno : completed w (.supervisor x) = [] := by
      cases x <;> simp [completed, hnone]
    obtain ⟨hnone', hA, hs⟩ := senders_supervisor h.senders hl hsend hm
    rw [hno, List.append_nil, List.append_nil]
    have hunborn := hl.unborn
    refine h.quiet ?_ (by simp [World.half, hnone, hnone', hA]) ?_ ?_ ?_ hs
    · cases hm <;> grind -linarith
    · cases hm <;> grind -linarith
    · cases hm <;> grind -linarith
    · cases hm <;> grind -linarith

/-- What Child A is about to write on the control socket when it did not write
there before. -/
theorem senders_childA (h : Senders w) (hrep : ¬ ∃ writes, w.childA = .report true writes)
    (hm : ChildA.Move w x w') :
    w'.toRunner = w.toRunner ∧ w'.childA.half = none ∧ Senders w' := by
  have hfailed := fun p => (Message.formed_setupFailed p).writes
  obtain ⟨hsup, hchild, hsingle⟩ := h
  cases hm with
  | @setupFailed call _ e =>
    refine ⟨rfl, ?_, ⟨hsup, fun writes hpc => ?_, .inr ?_⟩⟩
    · cases call <;> simp [SetupCall.report, SetupCall.onControl, FailureReport.writes, hfailed,
        ChildA.half]
    · refine ⟨.setupFailed (setupFailure call.stage e), Message.formed_setupFailed _, rfl, .inl ?_⟩
      rw [← hfailed]
      cases call <;> simp_all [SetupCall.report, SetupCall.onControl, FailureReport.writes]
    · cases call <;> simp [SetupCall.report, SetupCall.onControl, FailureReport.writes, hfailed,
        ChildA.half]
  | toldControl hpc => exact absurd ⟨_, hpc⟩ hrep
  | @setupDone _ rest =>
    rcases ChildA.next_cases rest with hn | ⟨call, rest', hn⟩ <;>
      exact ⟨rfl, by simp [hn, ChildA.half], ⟨hsup, by simp [hn], .inr (by simp [hn, ChildA.half])⟩⟩
  | @toldStatus chunk rest =>
    dsimp only
    split <;> exact ⟨rfl, rfl, ⟨hsup, by rintro _ ⟨⟩, .inr rfl⟩⟩
  | @forwarded b_status chunk rest =>
    dsimp only
    split <;> exact ⟨rfl, rfl, ⟨hsup, by rintro _ ⟨⟩, .inr rfl⟩⟩
  | again =>
    have hnone : w.childA.half = none := by
      cases hA : w.childA <;> simp_all [ChildA.half]
    exact ⟨rfl, hnone, ⟨hsup, hchild, hsingle⟩⟩
  | _ => exact ⟨rfl, rfl, ⟨hsup, by rintro _ ⟨⟩, .inr rfl⟩⟩

theorem childA (h : Wire ms unread begun w)
    (hx : (∃ writes, w.childA = .report true writes) → x.fails = false)
    (ht : torn w (.childA x) = false) (hopen : w.childA ≠ .unborn → w.runner.control_open = true)
    (hm : ChildA.Move w x w') :
    Wire (ms ++ completed w (.childA x)) (unread ++ completed w (.childA x)) begun w' := by
  by_cases hrep : ∃ writes, w.childA = .report true writes
  · have hx' := hx hrep
    cases hm with
    | toldControl hpc hcontrol =>
      obtain ⟨m, hf, htype, hw⟩ := h.senders.childA _ hpc
      rcases hw with hw | hw <;> cases hw
      · have hs : w.sup.pc.half = none := by simpa [torn, hpc] using ht
        simpa [completed, hpc, ChildA.half] using h.told_header hpc hf htype hs
      · simpa [completed, hpc, hcontrol, ChildA.half, ← htype] using
          h.told_payload hpc hf htype
    | again => cases hx'
    | reportLost hpc hlost =>
      have := hopen (by simp [hpc])
      obtain ⟨writes, hpc'⟩ := hrep
      rcases hlost with ⟨e, rfl⟩ | ⟨-, hc⟩ | ⟨ho, -⟩
      · cases hx'
      · simp [this] at hc
      · simp_all
    | _ => simp_all
  · have hnone : w.childA.half = none := by
      cases hA : w.childA <;> simp_all [ChildA.half]
    have hno : completed w (.childA x) = [] := by
      cases x <;> simp [completed, hnone]
    obtain ⟨hput, hnone', hs⟩ := senders_childA h.senders hrep hm
    rw [hno, List.append_nil, List.append_nil]
    exact h.quiet hput (by simp [World.half, hnone, hnone', hm.sup]) (by rw [hm.sup])
      (by rw [hm.sup]; exact fun _ => id) (by cases hm <;> grind -linarith) hs

end Wire

end OnlineJudge
