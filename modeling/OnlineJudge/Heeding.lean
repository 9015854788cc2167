import OnlineJudge.Outcomes

/-!
# Heeding a setup failure

The loop learns that Child A has ended from the status pipe, which it reads only
when `poll` saw something there, and from a `wait4` that it makes in any case. A
report that arrives between the two goes unread, and Child A passes for a
submission that ended.
-/

namespace OnlineJudge

variable {q : Request} {acts : List Act} {w w' : World} {x : Answer} {a : Act}
  {ms : List Message}

/-- The loop reaps Child A while a report of a setup failure waits in the pipe. -/
def passesOver (w : World) : Act → Bool
  | .supervisor (.reap _) =>
    reportsFailure w.statusPipe.pending &&
      match w.sup.pc, w.childA with
      | .waitNoHang, .exited _ => true
      | _, _ => false
  | _ => false

/-- The supervisor takes the submission for ended. -/
def SupervisorPc.ending : SupervisorPc → Bool
  | removeCgroup .finished _ | send .terminated _ => true
  | _ => false

attribute [grind =] SupervisorPc.ending

/-- Once the supervisor takes the submission for ended, no report was written, and
none can be. -/
def Heeded (ms : List Message) (w : World) : Prop :=
  w.sup.pc.ending = true ∨ (∃ m ∈ ms, m.type = .terminated) →
    w.sup.startup_status_open = false ∧ reportsFailure w.statusPipe.sent = false

theorem SupervisorPc.ending_of_half {pc : SupervisorPc} {m : Message} (h : pc.half = some m)
    (hm : m.type = .terminated) : pc.ending = true := by
  unfold half at h
  split at h <;> cases h
  rename_i caller payload
  cases caller <;> first | rfl | cases hm

theorem ChildA.type_of_half {c : ChildA} {m : Message} (h : c.half = some m) :
    m.type = .setupFailed := by
  unfold half at h
  split at h <;> cases h
  rfl

/-- The supervisor does not open the status pipe again. -/
theorem Supervisor.Move.status_closed (hm : Supervisor.Move w x w')
    (h : w.sup.startup_status_open = false) : w'.sup.startup_status_open = false := by
  cases hm with
  | gotControl =>
    rcases w.sup.handleControl_cases
      (.ofBytes (w.toSup.pending.take headerSize)) with he | he | he | he <;> grind -linarith
  | @gotStatus r => cases r <;> grind -linarith
  | waitedA site | waitAFailed site => cases site <;> grind -linarith
  | @sent caller | @sendFailed _ caller | @openedKill caller | @killWritten caller
  | @killDenied _ caller | @killFailed _ caller | @removed caller | @removeBusy caller
  | @removeDenied caller | @removeFailed caller =>
    cases caller <;> grind -linarith
  | _ => grind -linarith

/-- Nobody writes to a status pipe that the supervisor has closed. -/
theorem Move.statusPipe_closed (hm : Move w a w') (h : w.sup.startup_status_open = false) :
    w'.sup.startup_status_open = false ∧ w'.statusPipe.sent = w.statusPipe.sent := by
  have hreader : w.statusReader = false := by simp [World.statusReader, h]
  cases hm with
  | runner hm =>
    rw [hm.statusPipe]
    rcases hm.sup with hs | ⟨-, -, hs⟩ <;> rw [hs] <;> exact ⟨h, rfl⟩
  | supervisor hm => exact ⟨hm.status_closed h, hm.statusPipe_sent⟩
  | childA hm =>
    rw [hm.sup]
    refine ⟨h, ?_⟩
    cases hm <;> simp_all
  | childB hm =>
    rw [hm.sup]
    refine ⟨h, ?_⟩
    cases hm <;> simp_all
  | _ => exact ⟨h, rfl⟩

/-- The loop takes the submission for ended when it reaps Child A, and only then. -/
theorem Supervisor.Move.concludes (hm : Supervisor.Move w x w') (hi : Listening w)
    (hp : passesOver w (.supervisor x) = false) (h : w'.sup.pc.ending = true) :
    w.sup.pc.ending = true ∨
      w'.sup.startup_status_open = false ∧ reportsFailure w.statusPipe.sent = false := by
  cases hm with
  | reapedA hpc ha hr =>
    refine .inr ⟨by clear hi hp; grind -linarith, ?_⟩
    have hpending : reportsFailure w.statusPipe.pending = false := by
      simpa [passesOver, hpc, ha] using hp
    rcases hi.waiting (by simp [hpc, SupervisorPc.listening]) with ⟨-, hs⟩ | ⟨⟨b_status, ht⟩, hs⟩
    · rwa [← hs]
    · rw [Channel.sent, ht, hs]
      exact reportsFailure_tag _
  | gotControl =>
    clear hi hp
    rcases w.sup.handleControl_cases
      (.ofBytes (w.toSup.pending.take headerSize)) with he | he | he | he <;> grind -linarith
  | @gotStatus r => clear hi hp; cases r <;> grind -linarith
  | waitedA site | waitAFailed site => clear hi hp; cases site <;> grind -linarith
  | @sent caller | @sendFailed _ caller | @openedKill caller | @killWritten caller
  | @killDenied _ caller | @killFailed _ caller | @removed caller | @removeBusy caller
  | @removeDenied caller | @removeFailed caller =>
    clear hi hp
    cases caller <;> grind -linarith
  | _ => clear hi hp; grind -linarith

namespace Heeded

/-- A step that completes no `Terminated` and does not end the submission. -/
theorem quiet (h : Heeded ms w) (hm : Move w a w')
    (hending : w'.sup.pc.ending = true → w.sup.pc.ending = true) {ms' : List Message}
    (hms : (∃ m ∈ ms', m.type = .terminated) →
      w.sup.pc.ending = true ∨ ∃ m ∈ ms, m.type = .terminated) : Heeded ms' w' := by
  intro hend
  obtain ⟨hopen, hsent⟩ := h (hend.elim (fun he => .inl (hending he)) hms)
  obtain ⟨hopen', hsent'⟩ := hm.statusPipe_closed hopen
  exact ⟨hopen', by rw [hsent', hsent]⟩

theorem keep (h : Heeded ms w) (hi : Listening w) (hp : passesOver w a = false)
    (ht : step w a = some w') : Heeded (ms ++ completed w a) w' := by
  have hm := moves_step ht
  have hms : (∃ m ∈ ms ++ completed w a, m.type = .terminated) →
      w.sup.pc.ending = true ∨ ∃ m ∈ ms, m.type = .terminated := by
    rintro ⟨m, hmem, htype⟩
    rcases List.mem_append.1 hmem with hmem | hmem
    · exact .inr ⟨m, hmem, htype⟩
    · rcases half_of_completed hmem with hs | hA
      · exact .inl (SupervisorPc.ending_of_half hs htype)
      · rw [ChildA.type_of_half hA] at htype
        cases htype
  cases hm with
  | @supervisor x _ hsup =>
    by_cases hend : w.sup.pc.ending = true ∨ ∃ m ∈ ms, m.type = .terminated
    · obtain ⟨hopen, hsent⟩ := h hend
      obtain ⟨hopen', hsent'⟩ := (Move.supervisor hsup).statusPipe_closed hopen
      exact fun _ => ⟨hopen', by rw [hsent', hsent]⟩
    · rintro (hend' | hmem)
      · rcases hsup.concludes hi hp hend' with he | ⟨hopen, hsent⟩
        · exact absurd (.inl he) hend
        · exact ⟨hopen, by rw [hsup.statusPipe_sent, hsent]⟩
      · exact absurd (hms hmem) hend
  | runner hr =>
    refine h.quiet (.runner hr) ?_ hms
    rcases hr.sup with hs | ⟨-, -, hs⟩ <;> rw [hs]
    · exact id
    · rintro ⟨⟩
  | childA hA => exact h.quiet (.childA hA) (by rw [hA.sup]; exact id) hms
  | childB hB => exact h.quiet (.childB hB) (by rw [hB.sup]; exact id) hms
  | diedSupervisor hk ha => exact h.quiet (.diedSupervisor hk ha) (by rintro ⟨⟩) hms
  | _ => exact h.quiet (moves_step ht) id hms

theorem init (q : Request) : Heeded [] (.init q) := by
  rintro (h | ⟨m, hm, -⟩)
  · cases h
  · cases hm

end Heeded

/-! ## What a report tells of the run before it -/

/-- Child A has failed where it does not report on the status pipe. -/
def Mute (w : World) : Prop :=
  w.statusPipe.sent = [] ∧ w.childB = .unborn ∧
    ((∃ writes, w.childA = .report true writes) ∨ ∃ s, w.childA = .exited s)

namespace Mute

theorem keep (h : Mute w) (hl : Lineage w) (hm : Move w a w') : Mute w' := by
  obtain ⟨hsent, hB, hA⟩ := h
  cases hm with
  | runner hm =>
    rw [Mute, hm.statusPipe, hm.childA, hm.childB]
    exact ⟨hsent, hB, hA⟩
  | supervisor hm =>
    rw [Mute, hm.statusPipe_sent, hm.childB]
    refine ⟨hsent, hB, ?_⟩
    rcases hm.phases with ⟨-, hs, -, -⟩ | ⟨hbefore, -⟩ | ⟨-, -, hs, -⟩ | ⟨-, hs, -, -⟩
    · rwa [hs]
    · simp [hl.unborn hbefore] at hA
    · rwa [hs]
    · rwa [hs]
  | childA hm =>
    cases hm with
    | @toldControl chunk rest hpc =>
      refine ⟨hsent, hB, ?_⟩
      by_cases hrest : rest = []
      · exact .inr ⟨_, if_pos hrest⟩
      · exact .inl ⟨_, if_neg hrest⟩
    | _ => simp_all [Mute]
  | childB hm => cases hm <;> simp_all [Mute]
  | diedA => exact ⟨hsent, hB, .inr ⟨_, rfl⟩⟩
  | _ => simp_all [Mute, ChildB.alive]

end Mute

/-- The executable does not exist, and the loop sees Child B's report in time. -/
def reported : List Act :=
  bootSupervisor ++ List.replicate 13 (Act.childA .ok) ++ List.replicate 14 (Act.childB .ok) ++
    [Act.childB (.fail ENOENT), .childB .ok] ++ List.replicate 5 (Act.childA .ok) ++
    [Act.supervisor (.ready false true), .supervisor .ok, .supervisor (.reap .zero)] ++
    List.replicate 3 (Act.supervisor .ok) ++
    [Act.runner .ok, .runner (.events { control := true })] ++ List.replicate 3 (Act.runner .ok)

end OnlineJudge
