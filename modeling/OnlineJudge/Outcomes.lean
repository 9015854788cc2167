import OnlineJudge.Session

/-!
# What an orderly run reports

Without a fault the run reports how the submission ended, unless `Terminate`
finds nobody left or a kill cuts the wait status short; and two writers on the
control socket are told apart as long as neither writes into a message of the
other.
-/

namespace OnlineJudge

variable {q : Request} {acts : List Act} {w w' : World} {x : Answer} {a : Act}

theorem RunnerPc.watching_of_looping {pc : RunnerPc} (h : pc.looping = true) :
    pc.watching = true := by
  cases pc <;> first | rfl | cases h

namespace Session

variable {ms : List Message}

theorem formed (h : Session ms w) : ∀ m ∈ ms, m.Formed := by
  rcases h with ⟨taken, unread, begun, h⟩ | h
  · exact h.wire.formed
  · exact h.formed

/-- The runner decodes what was sent, in order, and stops only at the end or at a
`SetupFailed`. -/
theorem decoded (h : Session ms w) :
    ∃ taken, taken <+: ms ∧ w.runner.decoded = taken.map Message.pair ∧
      (w.runner.pc = .returned →
        taken = ms ∨ ∃ (before : List Message) (m : Message),
          taken = before ++ [m] ∧ m.type = .setupFailed) := by
  rcases h with ⟨taken, unread, begun, h⟩ | h
  · refine ⟨taken, ⟨unread, h.split.symm⟩, h.decoded, fun hpc => ?_⟩
    cases h.attends with
    | looping _ hpc' => simp [hpc, RunnerPc.looping] at hpc'
    | _ => simp_all
  · obtain ⟨taken, htaken, hdecoded, hall⟩ := h.decoded
    exact ⟨taken, htaken, hdecoded, fun _ => hall⟩

/-- No message that it decodes is an unexpected one. -/
theorem watching (h : Session ms w) :
    w.runner.pc.watching = true ∨ w.runner.pc = .returned := by
  rcases h with ⟨taken, unread, begun, h⟩ | h
  · cases h.attends with
    | looping _ hpc => exact .inl (RunnerPc.watching_of_looping hpc)
    | setup hpc | awaiting hpc | opening hpc | failing _ _ hpc | ending _ _ hpc =>
      exact .inl (by rw [hpc]; rfl)
  · cases h.terminal with
    | failed _ hpc =>
      rcases hpc with hpc | hpc | ⟨hpc, -⟩
      · exact .inl (by rw [hpc]; rfl)
      · exact .inl (by rw [hpc]; rfl)
      · exact .inr hpc
    | ended _ _ hpc =>
      rcases hpc with ⟨hpc, -⟩ | ⟨hpc, -⟩ | ⟨hpc, -⟩
      · exact .inl (by rw [hpc]; rfl)
      · exact .inl (by rw [hpc]; rfl)
      · exact .inr hpc

/-- The terminal message decides what is returned. -/
theorem returned (h : Session ms w) (hpc : w.runner.pc = .returned) :
    (∃ m ∈ ms, m.type = .setupFailed) ∧ w.runner.result.status = .sandboxFailure ∨
      (∃ m ∈ ms, m.type = .terminated) ∧ (∀ m ∈ ms, m.type ≠ .setupFailed) ∧
        (w.runner.result.status = .completed ∨ w.runner.result.status = .signaled ∨
          w.runner.result.status = .timedOut) := by
  rcases h with ⟨taken, unread, begun, h⟩ | h
  · cases h.attends with
    | looping _ hpc' => simp [hpc, RunnerPc.looping] at hpc'
    | _ => simp_all
  · cases h.terminal with
    | failed hm hpc' =>
      rcases hpc' with hpc' | hpc' | ⟨-, hstatus⟩
      · simp [hpc] at hpc'
      · simp [hpc] at hpc'
      · exact .inl ⟨hm, hstatus⟩
    | ended hm hno hpc' =>
      rcases hpc' with ⟨hpc', -⟩ | ⟨hpc', -⟩ | ⟨-, hstatus⟩
      · simp [hpc] at hpc'
      · simp [hpc] at hpc'
      · exact .inr ⟨hm, hno, hstatus⟩

end Session

/-! ## Without a fault -/

/-- No call fails, except that the submission may have closed its stdin. -/
def blameless (w : World) (a : Act) : Bool :=
  a.faultless || a = .runner (.fail EPIPE) && w.runner.pc = .writeStdin

theorem attended_of_blameless (h : blameless w a = true) : attended w a = true := by
  cases a with
  | runner x => cases x <;> simp_all [blameless, attended, Act.faultless]
  | supervisor x => cases x <;> simp_all [blameless, attended, Act.faultless]
  | _ => rfl

theorem struck_of_blameless (h : blameless w a = true) : struck w a = false := by
  cases a with
  | childA x => cases x <;> simp_all [blameless, struck, Act.faultless]
  | _ => rfl

theorem setupFails_of_blameless (h : blameless w a = true) : setupFails w a = false := by
  cases a with
  | childA x => cases x <;> simp_all [blameless, setupFails, Act.faultless]
  | childB x => cases x <;> simp_all [blameless, setupFails, Act.faultless]
  | _ => rfl

theorem Recorded.half_eq_none (h : Recorded w) : w.childA.half = none := by
  unfold ChildA.half
  split
  · rename_i hpc
    exact absurd hpc (h.silentA _ _)
  · rfl

/-- Only a Child A that reports a failure can be in the way of the supervisor. -/
theorem Recorded.not_torn (h : Recorded w) : torn w a = false := by
  have hnone := h.half_eq_none
  have hsilent := h.silentA
  unfold torn
  split
  · simp [hnone]
  · cases hA : w.childA <;> simp_all
  · simp [hnone]
  · rfl

/-- The supervisor is on its way to send `SetupFailed`. -/
def SupervisorPc.failing : SupervisorPc → Bool
  | waitFailed _ | removeCgroup (.payload _) _ | send .prepare _ | send .setupFailed _ => true
  | _ => false

attribute [grind =] SupervisorPc.failing

theorem SupervisorPc.failing_of_half {pc : SupervisorPc} {m : Message} (h : pc.half = some m)
    (hm : m.type = .setupFailed) : pc.failing = true := by
  unfold half at h
  split at h <;> cases h
  rename_i caller payload
  cases caller <;> first | rfl | cases hm

/-- What a step completes was half written. -/
theorem half_of_completed {m : Message} (h : m ∈ completed w a) :
    w.sup.pc.half = some m ∨ w.childA.half = some m := by
  unfold completed at h
  split at h
  · split at h
    · exact .inl (by simpa using h)
    · cases h
  · split at h
    · exact .inr (by simpa using h)
    · cases h
  · cases h

/-- Nothing that waits in the pipe is a report. -/
theorem Recorded.not_reportsFailure (h : Recorded w) :
    reportsFailure w.statusPipe.sent = false := by
  by_cases hsent : w.statusPipe.sent = []
  · rw [hsent]
    rfl
  · obtain ⟨b_status, -, hprefix⟩ := h.written hsent
    obtain ⟨first, rest, hcons⟩ := List.exists_cons_of_ne_nil hsent
    rw [hcons] at hprefix ⊢
    obtain ⟨rfl, -⟩ := List.cons_prefix_cons.1 hprefix
    exact reportsFailure_tag rest

/-- Nobody has a setup failure to report. -/
structure Unfailing (ms : List Message) (w : World) : Prop where
  recorded : Recorded w
  sup : w.sup.pc.failing = false
  sent : ∀ m ∈ ms, m.type ≠ .setupFailed

theorem Unfailing.supervisor (h : w.sup.pc.failing = false) (hr : Recorded w)
    (hi : Listening w) (hx : x.fails = false) (hm : Supervisor.Move w x w') :
    w'.sup.pc.failing = false := by
  cases hm with
  | @gotStatus r n hpc hrec =>
    rcases hi.found (by simp [hpc, SupervisorPc.listening]) hrec with
      ⟨rfl, -⟩ | ⟨-, hf⟩ | ⟨rfl, -⟩ | ⟨⟨b_status, rfl⟩, -⟩
    · rfl
    · rw [hr.not_reportsFailure] at hf
      cases hf
    · clear hr hi hrec
      grind -linarith
    · rfl
  | gotControl =>
    clear hr hi
    rcases w.sup.handleControl_cases
      (.ofBytes (w.toSup.pending.take headerSize)) with he | he | he | he <;> grind -linarith
  | waitedA site | waitAFailed site => clear hr hi; cases site <;> grind -linarith
  | @sent caller | @sendFailed _ caller | @openedKill caller | @killWritten caller
  | @killDenied _ caller | @killFailed _ caller | @removed caller | @removeBusy caller
  | @removeDenied caller | @removeFailed caller =>
    clear hr hi
    cases caller <;> grind -linarith
  | _ => clear hr hi; grind -linarith

theorem Unfailing.keep {ms : List Message} (h : Unfailing ms w) (hl : Lineage w)
    (hi : Listening w) (hb : blameless w a = true) (ht : step w a = some w') :
    Unfailing (ms ++ completed w a) w' := by
  have hm := moves_step ht
  obtain ⟨hr, hsup, hsent⟩ := h
  refine ⟨hr.keep hl (setupFails_of_blameless hb) hm, ?_, ?_⟩
  · cases hm with
    | runner hm =>
      rcases hm.sup with hs | ⟨-, -, hs⟩ <;> rw [hs]
      · exact hsup
      · rfl
    | @supervisor x _ hm =>
      have hx : x.fails = false := by
        cases x <;> first | rfl | simp [blameless, Act.faultless] at hb
      exact Unfailing.supervisor hsup hr hi hx hm
    | childA hm => rwa [hm.sup]
    | childB hm => rwa [hm.sup]
    | diedSupervisor => rfl
    | _ => exact hsup
  · intro m hmem
    rcases List.mem_append.1 hmem with hmem | hmem
    · exact hsent m hmem
    · rcases half_of_completed hmem with hs | hA
      · intro htype
        simp [SupervisorPc.failing_of_half hs htype] at hsup
      · simp [hr.half_eq_none] at hA

theorem Unfailing.init (q : Request) : Unfailing [] (.init q) := ⟨.init q, rfl, nofun⟩

theorem orderly_of_blameless (hr : Recorded w) (hb : blameless w a = true)
    (hu : unheard w a = false) (hc : cutShort w a = false) : orderly w a = true := by
  simp [orderly, attended_of_blameless hb, struck_of_blameless hb, hr.not_torn, hu, hc]

/-- Without a fault, `run` reports how the submission ended: unless `Terminate`
finds nobody left to take it, or a kill leaves half a wait status behind. -/
theorem blameless_run_reports_end (h : Runs q acts w)
    (hs : Machine.Along step (fun s a => blameless s a = true ∧ unheard s a = false ∧
      cutShort s a = false) (.init q) acts)
    (hpc : w.runner.pc = .returned) :
    w.runner.result.status = .completed ∨ w.runner.result.status = .signaled ∨
      w.runner.result.status = .timedOut := by
  have hreach := Machine.run_collect (f := completed)
    (I := fun ms s => Lineage s ∧ Listening s ∧ Unfailing ms s ∧ Session ms s)
    (fun ms s a t ⟨hb, hu, hc⟩ ⟨hl, hi, hn, hs⟩ ht =>
      ⟨hl.keep (moves_step ht), hi.keep hl (moves_step ht), hn.keep hl hi hb ht,
        hs.keep hl hi (orderly_of_blameless hn.recorded hb hu hc) ht⟩)
    ⟨.init q, .init q, .init q, .init q⟩ hs h
  obtain ⟨-, -, hunfailing, hsession⟩ := hreach
  rcases hsession.returned hpc with ⟨⟨m, hm, htype⟩, -⟩ | ⟨-, -, hstatus⟩
  · exact absurd htype (hunfailing.sent m hm)
  · exact hstatus

/-- A submission that ends by itself. -/
theorem blameless_run_reports_end_completes :
    ∃ w, Runs ⟨[], 1000, 0⟩ (completes 0) w ∧ w.runner.pc = .returned ∧
      (w.runner.result.status = .completed ∨ w.runner.result.status = .signaled ∨
        w.runner.result.status = .timedOut) := by
  obtain ⟨w, hw, hpc⟩ : ∃ w, Runs ⟨[], 1000, 0⟩ (completes 0) w ∧ w.runner.pc = .returned :=
    exists_run (by decide +kernel)
  exact ⟨w, hw, hpc, blameless_run_reports_end hw (by decide +kernel) hpc⟩

/-- The submission ends in time; the deadline passes before the runner looks at
the control socket, and by then the supervisor has sent `Terminated` and is
gone. -/
def crossed : List Act :=
  boot ++ [Act.submission (.finish 0)] ++ List.replicate 5 (Act.childA .ok) ++
    [Act.supervisor (.ready false true), .supervisor .ok, .supervisor (.reap .zero)] ++
    List.replicate 3 (Act.supervisor .ok) ++ [Act.tick 1000000000] ++
    List.replicate 106 (Act.runner .ok)

theorem deadline_crosses_end :
    ¬ ∀ (q : Request) (acts : List Act) (w : World), Runs q acts w →
      Machine.Along step (fun s a => blameless s a = true) (.init q) acts →
      w.runner.pc = .returned →
      w.runner.result.status = .completed ∨ w.runner.result.status = .signaled ∨
        w.runner.result.status = .timedOut := by
  intro h
  obtain ⟨w, hw, hpc, hstatus⟩ : ∃ w, Runs ⟨[], 1000, 0⟩ crossed w ∧ w.runner.pc = .returned ∧
      w.runner.result.status = .runnerFailure := exists_run (by decide +kernel)
  have := h ⟨[], 1000, 0⟩ crossed w hw (by decide +kernel) hpc
  simp [hstatus] at this

/-- Child A is killed between the two writes of the wait status. -/
def splitStatus : List Act :=
  boot ++ [Act.submission (.finish 0)] ++ List.replicate 2 (Act.childA .ok) ++
    [Act.tick 1000000000] ++
    List.replicate 2 (Act.runner .ok) ++ [Act.supervisor (.ready true true)] ++
    List.replicate 3 (Act.supervisor .ok) ++ [Act.die .childA] ++
    List.replicate 2 (Act.supervisor .ok) ++
    [Act.supervisor (.reap .zero), .runner (.events { control := true })] ++
    List.replicate 9 (Act.runner .ok)

example : (Machine.run step (.init ⟨[], 1000, 0⟩) splitStatus).any (fun w =>
    w.runner.pc = .returned ∧ w.runner.result.status = .runnerFailure) = true := by
  decide +kernel

/-! ## Two writers -/

/-- No call fails but for a setup call of the children. -/
def onlySetupFails (w : World) (a : Act) : Bool := blameless w a || setupFails w a

theorem attended_of_onlySetupFails (h : onlySetupFails w a = true) : attended w a = true := by
  rw [onlySetupFails, Bool.or_eq_true] at h
  rcases h with h | h
  · exact attended_of_blameless h
  · cases a <;> first | rfl | cases h

theorem struck_of_onlySetupFails (h : onlySetupFails w a = true) : struck w a = false := by
  rw [onlySetupFails, Bool.or_eq_true] at h
  rcases h with h | h
  · exact struck_of_blameless h
  · cases a with
    | childA x => cases x <;> cases hA : w.childA <;> simp_all [setupFails, struck]
    | _ => rfl

/-- What was ever written to the status pipe stays written. -/
theorem Move.statusPipe_grows (hm : Move w a w') : w.statusPipe.sent <+: w'.statusPipe.sent := by
  cases hm with
  | runner hm => exact hm.statusPipe ▸ List.prefix_rfl
  | supervisor hm => exact hm.statusPipe_sent ▸ List.prefix_rfl
  | childA hm =>
    cases hm with
    | toldStatus | forwarded =>
      rw [Channel.sent_put]
      exact List.prefix_append _ _
    | _ => exact List.prefix_rfl
  | childB hm =>
    cases hm with
    | told =>
      rw [Channel.sent_put]
      exact List.prefix_append _ _
    | _ => exact List.prefix_rfl
  | _ => exact List.prefix_rfl

/-- The status pipe begins with a wait status. -/
def World.forwarded (w : World) : Prop := ∃ rest, w.statusPipe.sent = tag :: rest

theorem World.forwarded.keep (h : w.forwarded) (hm : Move w a w') : w'.forwarded := by
  obtain ⟨rest, hsent⟩ := h
  obtain ⟨more, hmore⟩ := hm.statusPipe_grows
  exact ⟨rest ++ more, by rw [← hmore, hsent, List.cons_append]⟩

theorem forwarded_of_cutShort (hi : Listening w) (hc : cutShort w a = true) : w.forwarded := by
  cases a with
  | supervisor x =>
    simp only [cutShort, truncated, Bool.and_eq_true, decide_eq_true_eq] at hc
    obtain ⟨⟨⟨-, hpc⟩, hpending⟩, -⟩ := hc
    rcases hi.waiting (by simp [hpc, SupervisorPc.listening]) with ⟨-, hp⟩ | ⟨-, hp⟩
    · exact ⟨[], by rw [← hp, hpending]⟩
    · simp [hp] at hpending
  | _ => cases hc

/-- Child A has forwarded a wait status only if there was a Child B. -/
theorem Written.ne_unborn (h : Written w) (hf : w.forwarded) : w.childB ≠ .unborn := by
  obtain ⟨rest, hsent⟩ := hf
  rcases h.shape with hs | hs | ⟨b_status, hB, -⟩
  · simp [hsent] at hs
  · simp [hsent] at hs
  · simp [hB]

/-- What the runner makes of the messages `ms`: it decodes whole messages, those
that were sent, up to the end or to a `SetupFailed`; it never gives up on one; and
a `SetupFailed` among them is what it reports. -/
def WellRead (ms : List Message) (w : World) : Prop :=
  (∀ m ∈ ms, m.Formed) ∧
  (∃ taken, taken <+: ms ∧ w.runner.decoded = taken.map Message.pair ∧
    (w.runner.pc = .returned →
      taken = ms ∨ ∃ before m, taken = before ++ [m] ∧ m.type = .setupFailed)) ∧
  (w.runner.pc.watching = true ∨ w.runner.pc = .returned) ∧
  (w.runner.pc = .returned → (∃ m ∈ ms, m.type = .setupFailed) →
    w.runner.result.status = .sandboxFailure)

theorem Session.wellRead {ms : List Message} (h : Session ms w) : WellRead ms w := by
  refine ⟨h.formed, h.decoded, h.watching, fun hpc ⟨m, hm, htype⟩ => ?_⟩
  rcases h.returned hpc with ⟨-, hstatus⟩ | ⟨-, hno, -⟩
  · exact hstatus
  · exact absurd htype (hno m hm)

theorem along_reach (q : Request) (acts : List Act) :
    Machine.Along step (fun s _ => Lineage s ∧ Listening s) (.init q) acts :=
  Machine.along_keeps (fun _ _ _ ⟨hl, hi⟩ ht =>
    ⟨hl.keep (moves_step ht), hi.keep hl (moves_step ht)⟩) ⟨.init q, .init q⟩

/-- The supervisor and Child A both write to the control socket. As long as
neither writes a header, or Child A dies, while a message is half written, and
`Terminate` finds somebody left, the runner reads what they sent. -/
theorem control_writers_agree (h : Runs q acts w) (hB : w.childB = .unborn)
    (hs : Machine.Along step (fun s a => onlySetupFails s a = true ∧ torn s a = false ∧
      unheard s a = false) (.init q) acts) :
    WellRead (Machine.collect step completed (.init q) acts) w := by
  have hreach := along_reach q acts
  have hcut : Machine.Along step (fun s a => cutShort s a = false) (.init q) acts := by
    refine Machine.along_of_end (J := World.forwarded) (fun s a t hi ht => ?_)
      (fun s a t _ hf ht => hf.keep (moves_step ht)) hreach h fun hf => ?_
    · cases hc : cutShort s a with
      | false => exact .inl rfl
      | true => exact .inr ((forwarded_of_cutShort hi.2 hc).keep (moves_step ht))
    · have hi := Machine.run_keeps (I := fun s => Lineage s ∧ Listening s)
        (fun _ _ _ ⟨hl, hi⟩ ht => ⟨hl.keep (moves_step ht), hi.keep hl (moves_step ht)⟩)
        ⟨.init q, .init q⟩ h
      exact hi.2.written.ne_unborn hf hB
  refine (Session.reach h ((hs.and hcut).mono fun s a ⟨⟨hsetup, ht, hu⟩, hc⟩ => ?_)).wellRead
  simp [orderly, attended_of_onlySetupFails hsetup, struck_of_onlySetupFails hsetup, ht, hu, hc]

/-- Child A fails after `Ready` was sent. -/
def readyFirst : List Act :=
  bootSupervisor ++ [Act.childA .ok, .childA (.fail EPERM), .childA .ok, .childA .ok, .runner .ok,
    .runner (.events { control := true }), .runner .ok, .runner .ok,
    .supervisor (.ready false true), .supervisor .ok, .supervisor (.reap .zero), .supervisor .ok,
    .supervisor .ok, .runner .ok]

theorem control_writers_agree_ready_first :
    ∃ w, Runs ⟨[], 1000, 0⟩ readyFirst w ∧ w.runner.pc = .returned ∧
      WellRead (Machine.collect step completed (.init ⟨[], 1000, 0⟩) readyFirst) w := by
  obtain ⟨w, hw, hpc, hB⟩ : ∃ w, Runs ⟨[], 1000, 0⟩ readyFirst w ∧ w.runner.pc = .returned ∧
      w.childB = .unborn := exists_run (by decide +kernel)
  exact ⟨w, hw, hpc, control_writers_agree hw hB (by decide +kernel)⟩

/-- Child A writes the header of `SetupFailed` between header and payload of
`Ready`. The runner takes it for the payload, and the rest of `Ready` for a
message of its own. -/
def interleaved : List Act :=
  List.replicate 6 (Act.runner .ok) ++ List.replicate 6 (Act.supervisor .ok) ++
    [Act.supervisor (.count 7)] ++ List.replicate 4 (Act.supervisor .ok) ++
    [Act.childA .ok, .childA (.fail EPERM), .childA .ok, .supervisor .ok, .childA .ok] ++
    List.replicate 3 (Act.runner .ok) ++ [Act.runner (.events { control := true }), .runner .ok,
      .runner .ok, .supervisor (.ready true true)] ++ List.replicate 4 (Act.supervisor .ok) ++
    [Act.supervisor (.reap .zero)] ++ List.replicate 3 (Act.supervisor .ok) ++
    List.replicate 103 (Act.runner .ok)

theorem control_writers_interleave :
    ¬ ∀ (q : Request) (acts : List Act) (w : World), Runs q acts w → w.childB = .unborn →
      Machine.Along step (fun s a => onlySetupFails s a = true) (.init q) acts →
      WellRead (Machine.collect step completed (.init q) acts) w := by
  intro h
  obtain ⟨w, hw, hB, hpc, hstatus⟩ : ∃ w, Runs ⟨[], 1000, 0⟩ interleaved w ∧ w.childB = .unborn ∧
      w.runner.pc = .returned ∧ w.runner.result.status = .runnerFailure :=
    exists_run (by decide +kernel)
  obtain ⟨-, -, -, hfailed⟩ := h ⟨[], 1000, 0⟩ interleaved w hw hB (by decide +kernel)
  have := hfailed hpc (by decide +kernel)
  simp [hstatus] at this

end OnlineJudge
