import OnlineJudge.Lineage

/-!
# The first message

Two processes write to the control socket, but each write of a header is one
`write`, and every order of them begins with the header of `Ready` or of
`SetupFailed`. So the runner never finds anything else in front.
-/

namespace OnlineJudge

variable {q : Request} {acts : List Act} {w w' : World} {x : Answer} {a : Act}

/-- A type that the first message may have: `Ready` only once Child A was
forked. -/
def Expected (w : World) (type : Word32) : Prop :=
  type = SandboxMessageType.setupFailed.code ∨
    type = SandboxMessageType.ready.code ∧ w.childA ≠ .unborn

/-- The bytes begin with such a header. -/
def Opens (w : World) (bytes : List Byte) : Prop :=
  headerSize ≤ bytes.length ∧ Expected w (SandboxMessageHeader.ofBytes (bytes.take headerSize)).type

theorem Opens.append {bytes : List Byte} (h : Opens w bytes) (more : List Byte) :
    Opens w (bytes ++ more) := by
  refine ⟨by have := h.1; simp; omega, ?_⟩
  rw [List.take_append_of_le_length h.1]
  exact h.2

theorem opens_header (m : Message) (h : Expected w m.type.code) : Opens w m.header.bytes := by
  have hlen : m.header.bytes.length = headerSize := SandboxMessageHeader.length_bytes _
  refine ⟨Nat.le_of_eq hlen.symm, ?_⟩
  rw [List.take_of_length_le (Nat.le_of_eq hlen), SandboxMessageHeader.ofBytes_bytes]
  exact h

/-- The routine that is called once `Ready` has arrived. -/
def Cleanup.afterReady : Cleanup → Bool
  | beforeReady _ => false
  | afterFailure _ => true

namespace RunnerPc

/-- The cleanup routine that is running. -/
def site : RunnerPc → Option Cleanup
  | cleanupTerminate use | cleanupNoHang use _ => some (.afterFailure use)
  | killSupervisor site | waitSupervisor site | openKill site | writeKill site
  | checkEmpty site _ | lastCheck site | accessCgroup site | removeCgroup site => some site
  | setup _ | receiveHeader | receivePayload _ | reapFailed | loop | sendTerminate | poll _
  | readHeader | readSetupFailed | readTerminated | finishSetupFailed | finishTerminated
  | writeStdin | readStdout | readStderr | reapSupervisor | returned => none

/-- `Ready` has arrived. -/
def entered : RunnerPc → Bool
  | setup _ | receiveHeader | receivePayload _ | reapFailed | returned => false
  | killSupervisor site | waitSupervisor site | openKill site | writeKill site
  | checkEmpty site _ | lastCheck site | accessCgroup site | removeCgroup site => site.afterReady
  | _ => true

end RunnerPc

attribute [grind =] Cleanup.afterReady RunnerPc.site RunnerPc.entered

/-- What is in front of the control socket, and what the runner makes of it. -/
structure Opening (w : World) : Prop where
  first : w.toRunner.sent ≠ [] → Opens w w.toRunner.sent
  silent : w.toRunner.sent = [] → w.sup.pc.phase = .started → ∃ ws, w.sup.pc = .send .ready ws
  sup : w.toRunner.sent = [] → ∀ caller chunk rest, w.sup.pc = .send caller (chunk :: rest) →
    Opens w chunk
  childA : w.toRunner.sent = [] → ∀ chunk rest, w.childA = .report true (chunk :: rest) →
    Opens w chunk
  untaken : (∃ n, w.runner.pc = .setup n) ∨ w.runner.pc = .receiveHeader → w.toRunner.taken = []
  payload : ∀ header, w.runner.pc = .receivePayload header → Expected w header.type
  site : w.runner.pc.site ≠ some (.beforeReady true)
  born : w.runner.pc.entered = true → w.childA ≠ .unborn

theorem Expected.of_born {type : Word32} (h : Expected w type)
    (hA : w.childA ≠ .unborn → w'.childA ≠ .unborn) : Expected w' type :=
  h.imp_right fun ht => ⟨ht.1, hA ht.2⟩

theorem Opens.of_born {bytes : List Byte} (h : Opens w bytes)
    (hA : w.childA ≠ .unborn → w'.childA ≠ .unborn) : Opens w' bytes :=
  ⟨h.1, h.2.of_born hA⟩

/-- One more write: it may be the first one. -/
theorem opens_put {chunk : List Byte} (hfirst : w.toRunner.sent ≠ [] → Opens w w.toRunner.sent)
    (h : w.toRunner.sent = [] → Opens w chunk) : Opens w (w.toRunner.put chunk).sent := by
  rw [Channel.sent_put]
  by_cases hs : w.toRunner.sent = []
  · simpa [hs] using h hs
  · exact (hfirst hs).append chunk

theorem sent_put_ne_nil {chunk : List Byte} (h : w.toRunner.sent = [] → Opens w chunk) :
    (w.toRunner.put chunk).sent ≠ [] := by
  rw [Channel.sent_put]
  by_cases hs : w.toRunner.sent = []
  · have := (h hs).1
    rintro hn
    simp [(List.append_eq_nil_iff.1 hn).2, headerSize] at this
  · simp [hs]

namespace Opening

/-- The part that the senders keep. -/
theorem supervisor_sup (h : Opening w) (hl : Lineage w) (hm : Supervisor.Move w x w')
    (hs : w'.toRunner.sent = []) :
    (w'.sup.pc.phase = .started → ∃ ws, w'.sup.pc = .send .ready ws) ∧
    ∀ caller chunk rest, w'.sup.pc = .send caller (chunk :: rest) → Opens w chunk := by
  have hready : w.childA ≠ .unborn → ∀ p, Opens w (Message.ready p).header.bytes := fun ha p =>
    opens_header _ (.inr ⟨rfl, ha⟩)
  have hfail : ∀ p, Opens w (Message.setupFailed p).header.bytes := fun p =>
    opens_header _ (.inl rfl)
  have hborn := hl.born
  have hsilent := h.silent
  have hsup := h.sup
  have hput : ∀ caller chunk rest, w.sup.pc = .send caller (chunk :: rest) →
      (w.toRunner.put chunk).sent ≠ [] := fun caller chunk rest hpc =>
    sent_put_ne_nil fun hs => hsup hs caller chunk rest hpc
  clear hl h
  cases hm with
  | gotControl =>
    rcases w.sup.handleControl_cases
      (.ofBytes (w.toSup.pending.take headerSize)) with he | he | he | he <;> grind -linarith
  | @gotStatus r => cases r <;> grind -linarith
  | waitedA site | waitAFailed site => cases site <;> grind -linarith
  | @sent caller chunk rest hpc => exact absurd hs (hput caller chunk rest hpc)
  | released => grind -linarith [Message.writes]
  | cgroupFailed | rootFailed => grind -linarith [Message.writes, FailureReport.writes]
  | @sendFailed _ caller | @openedKill caller | @killWritten caller
  | @killDenied _ caller | @killFailed _ caller | @removed caller | @removeBusy caller
  | @removeDenied caller | @removeFailed caller =>
    cases caller <;> grind -linarith
  | _ => grind -linarith

theorem supervisor (h : Opening w) (hl : Lineage w) (hm : Supervisor.Move w x w') :
    Opening w' := by
  have hA : w.childA ≠ .unborn → w'.childA ≠ .unborn := by
    cases hm.phases <;> grind -linarith
  have hnext := h.supervisor_sup hl hm
  obtain ⟨hfirst, hsilent, hsup, hchild, hun, hpay, hsite, hborn⟩ := h
  have hr := hm.runner
  refine ⟨?_, fun hs => (hnext hs).1, fun hs caller chunk rest hpc =>
    ((hnext hs).2 caller chunk rest hpc).of_born hA, ?_, ?_, ?_, by rw [hr]; exact hsite, ?_⟩
  · intro hs
    refine Opens.of_born ?_ hA
    cases hm with
    | sent hpc => exact opens_put hfirst fun hs => hsup hs _ _ _ hpc
    | waitedA site | waitAFailed site => cases site <;> exact hfirst hs
    | _ => exact hfirst hs
  · intro hs chunk rest hpc
    refine Opens.of_born ?_ hA
    cases hm with
    | sent hsend => exact absurd hs (sent_put_ne_nil fun hs => hsup hs _ _ _ hsend)
    | forked => simp at hpc
    | waitedA site | waitAFailed site => cases site <;> exact hchild hs _ _ hpc
    | _ => exact hchild hs _ _ hpc
  · rw [hr]
    intro hpc
    cases hm <;> exact hun hpc
  · rw [hr]
    exact fun header hpc => (hpay header hpc).of_born hA
  · rw [hr]
    exact fun hpc => hA (hborn hpc)

/-- A step that neither writes to the socket nor makes the runner move. -/
theorem quiet (h : Opening w) (hr : w'.runner = w.runner) (ht : w'.toRunner = w.toRunner)
    (hA : w.childA ≠ .unborn → w'.childA ≠ .unborn)
    (hs : w'.sup.pc = w.sup.pc ∨ w'.sup.alive = false)
    (hc : ∀ chunk rest, w'.childA = .report true (chunk :: rest) →
      w.childA = .report true (chunk :: rest) ∨ Opens w chunk) : Opening w' := by
  obtain ⟨hfirst, hsilent, hsup, hchild, hun, hpay, hsite, hborn⟩ := h
  rw [← ht] at hfirst hsilent hsup hchild hun
  rw [← hr] at hun hpay hsite hborn
  refine ⟨fun hn => (hfirst hn).of_born hA, ?_, ?_, ?_, hun,
    fun header hpc => (hpay header hpc).of_born hA, hsite, fun hpc => hA (hborn hpc)⟩
  · rcases hs with hs | hs <;> grind -linarith
  · intro hn caller chunk rest hpc
    rcases hs with hs | hs
    · exact (hsup hn caller chunk rest (hs ▸ hpc)).of_born hA
    · simp [Supervisor.alive, hpc] at hs
  · intro hn chunk rest hpc
    rcases hc chunk rest hpc with hpc | ho
    · exact (hchild hn chunk rest hpc).of_born hA
    · exact ho.of_born hA

theorem childA_move (h : Opening w) (hm : ChildA.Move w x w') : Opening w' := by
  have hA : w.childA ≠ .unborn → w'.childA ≠ .unborn := by
    cases hm with
    | released => grind -linarith [childASetup, ChildA.next]
    | @setupDone _ rest => have := ChildA.next_cases rest; grind -linarith
    | _ => grind -linarith
  cases hm with
  | toldControl hpc =>
    obtain ⟨hfirst, hsilent, hsup, hchild, hun, hpay, hsite, hborn⟩ := h
    have hput := sent_put_ne_nil fun hs => hchild hs _ _ hpc
    exact ⟨fun _ => (opens_put hfirst fun hs => hchild hs _ _ hpc).of_born hA,
      fun hs => absurd hs hput, fun hs => absurd hs hput, fun hs => absurd hs hput, hun,
      fun header hh => (hpay header hh).of_born hA, hsite, fun hh => hA (hborn hh)⟩
  | @setupFailed call _ e =>
    refine h.quiet rfl rfl hA (.inl rfl) fun chunk rest hpc => .inr ?_
    have hopens :=
      opens_header (w := w) (Message.setupFailed (setupFailure call.stage e)) (.inl rfl)
    cases call <;>
      grind -linarith [Message.writes, FailureReport.writes, SetupCall.report, SetupCall.onControl]
  | released => exact h.quiet rfl rfl hA (.inl rfl) (by simp [childASetup, ChildA.next])
  | @setupDone _ rest =>
    have := ChildA.next_cases rest
    exact h.quiet rfl rfl hA (.inl rfl) (by grind -linarith)
  | _ => exact h.quiet rfl rfl hA (.inl rfl) (by grind -linarith)

/-- An expected message leads into the loop or to the end, never to the branch
for the others. -/
theorem received (header : SandboxMessageHeader) (payload : List Byte)
    (h : Expected w header.type) (r : Runner) :
    (r.received header payload).pc = .reapFailed ∨
      (r.received header payload).pc = .loop ∧ w.childA ≠ .unborn := by
  unfold Runner.received Runner.dispatch
  rcases h with h | ⟨h, hA⟩
  · simp [h, Runner.go]
  · simp [h, Runner.go, hA, SandboxMessageType.code]

theorem headerReceived (header : SandboxMessageHeader) (h : Expected w header.type)
    (r : Runner) :
    (r.headerReceived header).pc = .killSupervisor (.beforeReady false) ∨
      (r.headerReceived header).pc = .receivePayload header ∨
      (r.headerReceived header).pc = .reapFailed ∨
      (r.headerReceived header).pc = .loop ∧ w.childA ≠ .unborn := by
  unfold Runner.headerReceived
  split
  · exact .inl rfl
  · split
    · exact .inr (.inr (received header [] h r))
    · exact .inr (.inl rfl)

theorem runner_pc (h : Opening w) (hm : Runner.Move w x w') :
    ((∃ n, w'.runner.pc = .setup n) ∨ w'.runner.pc = .receiveHeader → w'.toRunner.taken = []) ∧
    (∀ header, w'.runner.pc = .receivePayload header → Expected w header.type) ∧
    w'.runner.pc.site ≠ some (.beforeReady true) ∧
    (w'.runner.pc.entered = true → w.childA ≠ .unborn) := by
  obtain ⟨hfirst, -, -, -, hun, hpay, hsite, hborn⟩ := h
  cases hm with
  | @got size yes no site hlen =>
    cases site with
    | header hpc =>
      have hhead : Expected w
          (SandboxMessageHeader.ofBytes (w.toRunner.pending.take headerSize)).type := by
        have hsent : w.toRunner.sent = w.toRunner.pending := by
          simp [Channel.sent, hun (.inr hpc)]
        have hne : w.toRunner.sent ≠ [] := by
          rw [hsent]
          rintro hn
          simp [hn, headerSize] at hlen
        exact hsent ▸ (hfirst hne).2
      have hrec := headerReceived _ hhead w.runner
      simp only
      generalize w.runner.headerReceived _ = r' at hrec ⊢
      grind -linarith
    | @payload header hpc =>
      have hrec := received header (w.toRunner.pending.take header.payload_size.toNat)
        (hpay header hpc) w.runner
      generalize w.runner.received header _ = r' at hrec ⊢
      grind -linarith
    | _ => grind -linarith
  | lost site => cases site <;> grind -linarith
  | sent site | sendFailed site => cases site <;> grind -linarith
  | waited site | waitFailed site =>
    cases site with
    | @cleanup site => rcases site with _ | _ | _ | _ <;> grind -linarith
    | _ => grind -linarith
  | @killFailed _ site | @foundEmpty site | @foundPopulated _ site | @removeSkipped _ site
  | @removed site | @removeFailed _ site =>
    rcases site with _ | _ | _ | _ <;> grind -linarith
  | _ => grind -linarith

theorem runner (h : Opening w) (hm : Runner.Move w x w') : Opening w' := by
  have hA := hm.childA
  have hsent := hm.toRunner_sent
  have hopens : ∀ bytes, Opens w bytes → Opens w' bytes := fun _ hb =>
    hb.of_born (by rw [hA]; exact id)
  obtain ⟨hun, hpay, hsite, hborn⟩ := h.runner_pc hm
  obtain ⟨hfirst, hsilent, hsup, hchild, -, -, -, -⟩ := h
  have hside : w'.sup.pc = w.sup.pc ∨ w'.sup.pc = .mkdirCgroup := by
    have := hm.sup
    grind -linarith
  exact ⟨by grind -linarith, by grind -linarith, by grind -linarith, by grind -linarith, hun,
    fun header hpc => (hpay header hpc).of_born (by rw [hA]; exact id), hsite,
    by rw [hA]; exact hborn⟩

theorem keep (h : Opening w) (hl : Lineage w) (hm : Move w a w') : Opening w' := by
  cases hm with
  | runner hm => exact h.runner hm
  | supervisor hm => exact h.supervisor hl hm
  | childA hm => exact h.childA_move hm
  | childB hm =>
    exact h.quiet hm.runner hm.toRunner (by rw [hm.childA]; exact id) (.inl (by rw [hm.sup]))
      (by rw [hm.childA]; exact fun _ _ => .inl)
  | diedSupervisor => exact h.quiet rfl rfl id (.inr rfl) fun _ _ => .inl
  | diedA => exact h.quiet rfl rfl (by simp) (.inl rfl) (by simp)
  | _ => exact h.quiet rfl rfl id (.inl rfl) fun _ _ => .inl

theorem init (q : Request) : Opening (.init q) :=
  ⟨fun h => absurd rfl h, fun _ => nofun, fun _ => nofun, fun _ => nofun, fun _ => rfl, nofun,
    nofun, nofun⟩

theorem reach (h : Runs q acts w) : Opening w := by
  have hkeep : Lineage w ∧ Opening w :=
    Machine.run_keeps (I := fun s => Lineage s ∧ Opening s)
      (fun _ _ _ hw ht => ⟨hw.1.keep (moves_step ht), hw.2.keep hw.1 (moves_step ht)⟩)
      ⟨Lineage.init q, init q⟩ h
  exact hkeep.2

end Opening

end OnlineJudge
