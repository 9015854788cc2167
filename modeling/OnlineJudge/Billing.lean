import OnlineJudge.Heeding
import OnlineJudge.Output
import OnlineJudge.Report
import OnlineJudge.Uneventful

/-!
# The published result

Without a fault `run` publishes what happened: how the submission ended, what it
used up, when the runner heard of it, and what was taken from the pipes.
-/

namespace OnlineJudge

variable {q : Request} {acts : List Act} {w w' : World} {x : Answer} {a : Act}

/-! ## The payload of `Terminated` -/

/-- Of elements written in `n` bytes each, the `i`-th is found at `n * i`. -/
theorem take_drop_flatMap {α β : Type} {f : α → List β} {n : Nat}
    (hf : ∀ a, (f a).length = n) (l : List α) {i : Nat} (h : i < l.length) :
    ((l.flatMap f).drop (n * i)).take n = f l[i] := by
  induction l generalizing i with
  | nil => cases h
  | cons a l ih =>
    cases i with
    | zero => simp [List.flatMap_cons, List.take_left' (hf a)]
    | succ i =>
      have hdrop : n * (i + 1) = (f a).length + n * i := by rw [hf, Nat.mul_succ, Nat.add_comm]
      rw [List.flatMap_cons, hdrop, ← List.drop_drop, List.drop_left, List.getElem_cons_succ]
      exact ih (Nat.lt_of_succ_lt_succ h)

@[simp] theorem Rusage.ofBytes_bytes (u : Rusage) : ofBytes u.bytes = u := by
  obtain ⟨words, hcount⟩ := u
  simp only [ofBytes, bytes, mk.injEq]
  refine List.ext_getElem (by simp [hcount]) fun i h h' => ?_
  rw [List.getElem_map, List.getElem_range,
    take_drop_flatMap (fun w => LittleEndian.length_bytesOf 8 w.toNat) words h',
    LittleEndian.valueOf_bytesOf_of_lt words[i].isLt, BitVec.ofNat_toNat, BitVec.setWidth_eq]

@[simp] theorem SandboxTerminatedPayload.ofBytes_bytes (p : SandboxTerminatedPayload) :
    ofBytes p.bytes = p := by
  have hwait := p.wait_status_ofBytes
  have hlen : (p.wait_status.bytes ++ List.replicate 4 (0 : Byte)).length = 8 := by simp
  have husage : (ofBytes p.bytes).usage = p.usage := by
    simp only [ofBytes, bytes]
    rw [List.drop_left' hlen, Rusage.ofBytes_bytes]
  cases p
  cases h : ofBytes _
  simp_all

theorem SandboxMessageType.code_inj {s t : SandboxMessageType} (h : s.code = t.code) : s = t := by
  cases s <;> cases t <;> first | rfl | cases h

/-! ## What the supervisor sends -/

/-- The usage with which the loop of the supervisor reaps Child A. -/
def childUsage (w : World) : Act → List Rusage
  | .supervisor (.reap usage) =>
    if w.sup.pc = .waitNoHang && (w.childA matches .exited _) && !w.reaped.childA then [usage]
    else []
  | _ => []

theorem childUsage_eq_nil (h : w.sup.pc ≠ .waitNoHang) : childUsage w a = [] := by
  unfold childUsage
  split
  · rw [if_neg (by simp [h])]
  · rfl

/-- The supervisor is about to send this, or the rest of it. -/
inductive Supervisor.Owes (s : Supervisor) (p : SandboxTerminatedPayload) : Prop
  | removing {retries} (hpc : s.pc = .removeCgroup .finished retries)
    (hp : p = ⟨s.reported, s.usage⟩)
  | sending (hpc : s.pc = .send .terminated (Message.terminated p).writes)
  | half (hpc : s.pc = .send .terminated [p.bytes])

theorem Supervisor.owes_cleanupReturned (s : Supervisor) (path : Bool) :
    ({ s with cgroup_path := path }.cleanupReturned true .finished).Owes
      ⟨s.reported, s.usage⟩ :=
  .sending rfl

theorem Supervisor.owes_cleanupCgroup (s : Supervisor) :
    (s.cleanupCgroup .finished).Owes ⟨s.reported, s.usage⟩ := by
  unfold cleanupCgroup
  split
  · exact .removing rfl rfl
  · exact .sending rfl

theorem Supervisor.Owes.of_removing {s : Supervisor} {p : SandboxTerminatedPayload} {retries : Nat}
    (h : s.Owes p) (hpc : s.pc = .removeCgroup .finished retries) :
    p = ⟨s.reported, s.usage⟩ := by
  cases h with
  | removing _ hp => exact hp
  | sending hpc' | half hpc' => simp [hpc] at hpc'

/-- Beyond `wait4` it keeps to what it owes. -/
theorem Supervisor.Move.owes (hm : Supervisor.Move w x w') (hpc : w.sup.pc ≠ .waitNoHang)
    (h : w'.sup.pc.ending = true) :
    w.sup.pc.ending = true ∧ ∀ p, w.sup.Owes p → w'.sup.Owes p := by
  cases hm with
  | again => exact ⟨h, fun _ => id⟩
  | madeCgroup | cgroupDenied | attachDenied => cases h
  | gotControl =>
    rcases w.sup.handleControl_cases
      (.ofBytes (w.toSup.pending.take headerSize)) with he | ⟨he, -⟩ | ⟨he, -⟩ | ⟨he, -⟩ <;>
      grind -linarith
  | @gotStatus r => cases r <;> grind -linarith
  | waitedA site | waitAFailed site => cases site <;> grind -linarith
  | @sent caller chunk rest hs =>
    cases caller with
    | terminated =>
      refine ⟨by rw [hs]; rfl, fun p hp => ?_⟩
      by_cases hrest : rest = []
      · rw [if_pos hrest] at h
        cases h
      · rw [if_neg hrest]
        cases hp with
        | removing hpc' => simp [hs] at hpc'
        | sending hpc' =>
          rw [hs, writes_terminated] at hpc'
          simp only [SupervisorPc.send.injEq, List.cons.injEq, true_and] at hpc'
          exact .half (by rw [hpc'.2]; rfl)
        | half hpc' =>
          rw [hs] at hpc'
          simp only [SupervisorPc.send.injEq, List.cons.injEq, true_and] at hpc'
          exact absurd hpc'.2 hrest
    | _ => grind -linarith
  | @removed caller _ hs | @removeDenied caller _ _ hs =>
    cases caller with
    | finished =>
      refine ⟨by rw [hs]; rfl, fun p hp => ?_⟩
      rw [hp.of_removing hs]
      exact Supervisor.owes_cleanupReturned _ _
    | _ => grind -linarith
  | @removeBusy caller _ hs =>
    cases caller with
    | finished => exact ⟨by rw [hs]; rfl, fun p hp => .removing rfl (hp.of_removing hs)⟩
    | _ => grind -linarith
  | @sendFailed _ caller | @openedKill caller | @killWritten caller
  | @killDenied _ caller | @killFailed _ caller | @removeFailed caller =>
    cases caller <;> grind -linarith
  | _ => grind -linarith

/-- Whose end and whose usage a `Terminated` tells. -/
def Told (usages : List Rusage) (w : World) (p : SandboxTerminatedPayload) : Prop :=
  usages = [p.usage] ∧ Witnessed w p.wait_status

/-- The usage is noted when Child A is reaped, and it is what is sent. -/
structure Billed (usages : List Rusage) (w : World) : Prop where
  unbilled : w.sup.pc.beforeWait = true → usages = []
  owed : w.sup.pc.ending = true → ∃ p, w.sup.Owes p ∧ Told usages w p

theorem Supervisor.Move.beforeWait_mono (hm : Supervisor.Move w x w')
    (h : w'.sup.pc.beforeWait = true) : w.sup.pc.beforeWait = true := by
  cases hm with
  | gotControl =>
    rcases w.sup.handleControl_cases
      (.ofBytes (w.toSup.pending.take headerSize)) with he | ⟨he, -⟩ | ⟨he, -⟩ | ⟨he, -⟩ <;>
      grind -linarith
  | @gotStatus r => cases r <;> grind -linarith
  | waitedA site | waitAFailed site => cases site <;> grind -linarith
  | @sent caller | @sendFailed _ caller | @openedKill caller | @killWritten caller
  | @killDenied _ caller | @killFailed _ caller | @removed caller | @removeBusy caller
  | @removeDenied caller | @removeFailed caller =>
    cases caller <;> grind -linarith
  | _ => grind -linarith

namespace Billed

variable {usages : List Rusage}

/-- A step that leaves the supervisor where it is, or ends it. -/
theorem quiet (h : Billed usages w) (hl : Lineage w) (hm : Move w a w')
    (hsup : w'.sup = w.sup ∨ ∃ s, w'.sup = w.sup.go (.exited s)) : Billed usages w' := by
  rcases hsup with hs | ⟨s, hs⟩
  · refine ⟨by rw [hs]; exact h.unbilled, fun hend => ?_⟩
    rw [hs] at hend ⊢
    obtain ⟨p, hp, htold⟩ := h.owed hend
    exact ⟨p, hp, htold.1, htold.2.keep hl hm⟩
  · exact ⟨by rw [hs]; rintro ⟨⟩, by rw [hs]; rintro ⟨⟩⟩

/-- `wait4` in the loop. -/
theorem waiting (h : Billed usages w) (hr : Reported w) (hpc : w.sup.pc = .waitNoHang)
    (hm : Supervisor.Move w x w') : Billed (usages ++ childUsage w (.supervisor x)) w' := by
  have hnone := h.unbilled (by rw [hpc]; rfl)
  subst hnone
  cases hm with
  | again => simpa [childUsage] using h
  | @reapedA usage raw_status _ ha hfirst =>
    have husage : childUsage w (.supervisor (.reap usage)) = [usage] := by
      simp [childUsage, hpc, ha, hfirst]
    rw [husage, List.nil_append]
    refine ⟨fun hb => ?_, fun _ => ?_⟩
    · simp only [Supervisor.cleanupCgroup] at hb
      split at hb <;> cases hb
    · refine ⟨_, Supervisor.owes_cleanupCgroup _, rfl, raw_status, ha, ?_⟩
      cases hf : w.sup.has_forwarded_status
      · exact .inl (by simp [Supervisor.reported, Supervisor.closeStatus, hf])
      · exact .inr (by simp [Supervisor.reported, Supervisor.closeStatus, hf, hr.forwarded hf])
  | @stillRunning usage _ ha =>
    have hnone : childUsage w (.supervisor (.reap usage)) = [] := by
      cases hA : w.childA <;> simp_all [childUsage]
    rw [hnone]
    exact ⟨fun _ => rfl, by rintro ⟨⟩⟩
  | @loopFailed x hx =>
    have hnone : childUsage w (.supervisor x) = [] := by
      rcases hx with ⟨⟨e, rfl⟩, -⟩ | ⟨-, rfl, -⟩ | ⟨-, hreaped⟩
      · rfl
      · rfl
      · cases x <;> simp [childUsage, hreaped]
    rw [hnone]
    refine ⟨fun _ => rfl, fun hend => ?_⟩
    simp only [Supervisor.fail] at hend
    split at hend
    · cases hend
    · split at hend <;> cases hend
  | waitedA site | waitAFailed site => cases site <;> simp_all
  | noProcess hx | killedA hx | killAFailed hx | attachDenied hx | startFailed hx | killDenied hx
  | killFailed hx =>
    simp_all
  | _ => simp_all

theorem supervisor (h : Billed usages w) (hl : Lineage w) (hr : Reported w)
    (hm : Supervisor.Move w x w') : Billed (usages ++ childUsage w (.supervisor x)) w' := by
  by_cases hpc : w.sup.pc = .waitNoHang
  · exact h.waiting hr hpc hm
  · rw [childUsage_eq_nil hpc, List.append_nil]
    refine ⟨fun hb => h.unbilled (hm.beforeWait_mono hb), fun hend => ?_⟩
    obtain ⟨hend', howes⟩ := hm.owes hpc hend
    obtain ⟨p, hp, htold⟩ := h.owed hend'
    exact ⟨p, howes p hp, htold.1, htold.2.keep hl (.supervisor hm)⟩

theorem keep (h : Billed usages w) (hl : Lineage w) (hr : Reported w) (hm : Move w a w') :
    Billed (usages ++ childUsage w a) w' := by
  have hquiet (hnone : childUsage w a = [])
      (hsup : w'.sup = w.sup ∨ ∃ s, w'.sup = w.sup.go (.exited s)) :
      Billed (usages ++ childUsage w a) w' := by
    rw [hnone, List.append_nil]
    exact h.quiet hl hm hsup
  cases hm with
  | supervisor hm => exact h.supervisor hl hr hm
  | runner hm =>
    rcases hm.sup with hs | ⟨hpc, -, hs⟩
    · exact hquiet rfl (.inl hs)
    · have hunborn := hl.unforked hpc
      refine ⟨fun _ => ?_, by rw [hs]; rintro ⟨⟩⟩
      simpa [childUsage] using h.unbilled (by rw [hunborn]; rfl)
  | childA hm => exact hquiet rfl (.inl hm.sup)
  | childB hm => exact hquiet rfl (.inl hm.sup)
  | diedSupervisor => exact hquiet rfl (.inr ⟨_, rfl⟩)
  | _ => exact hquiet rfl (.inl rfl)

theorem init (q : Request) : Billed [] (.init q) := ⟨fun _ => rfl, by rintro ⟨⟩⟩

end Billed

theorem SupervisorPc.eq_of_half {pc : SupervisorPc} {m : Message} (h : pc.half = some m) :
    ∃ caller, pc = .send caller [m.payload] ∧ m.type = caller.type := by
  unfold half at h
  split at h <;> cases h
  exact ⟨_, rfl, rfl⟩

/-- What the supervisor has sent as `Terminated` is what it owed. -/
def Paid (usages : List Rusage) (ms : List Message) (w : World) : Prop :=
  ∀ m ∈ ms, m.type = .terminated → ∃ p, m = Message.terminated p ∧ Told usages w p

theorem Paid.keep {usages : List Rusage} {ms : List Message} (h : Paid usages ms w)
    (hb : Billed usages w) (hl : Lineage w) (hm : Move w a w') :
    Paid (usages ++ childUsage w a) (ms ++ completed w a) w' := by
  intro m hmem htype
  rcases List.mem_append.1 hmem with hmem | hmem
  · obtain ⟨p, hp, htold⟩ := h m hmem htype
    have hpc : w.sup.pc ≠ .waitNoHang := by
      intro hpc
      have hnone := hb.unbilled (by rw [hpc]; rfl)
      rw [htold.1] at hnone
      cases hnone
    rw [childUsage_eq_nil hpc, List.append_nil]
    exact ⟨p, hp, htold.1, htold.2.keep hl hm⟩
  · rcases half_of_completed hmem with hs | hA
    · obtain ⟨p, howes, htold⟩ := hb.owed (SupervisorPc.ending_of_half hs htype)
      obtain ⟨caller, hpc, hcaller⟩ := SupervisorPc.eq_of_half hs
      obtain rfl := SendCaller.eq_terminated (hcaller ▸ htype)
      rw [childUsage_eq_nil (by simp [hpc]), List.append_nil]
      refine ⟨p, ?_, htold.1, htold.2.keep hl hm⟩
      cases howes with
      | removing hpc' => simp [hpc] at hpc'
      | sending hpc' => simp [hpc, writes_terminated] at hpc'
      | half hpc' =>
        have hpayload : m.payload = p.bytes := by simpa [hpc] using hpc'
        cases m
        simp_all [Message.terminated]
    · rw [ChildA.type_of_half hA] at htype
      cases htype

/-! ## Without `Terminate` -/

/-- A supervisor that has started its execution has released Child A. -/
def Freed (w : World) : Prop := w.sup.pc.phase = .started → w.released = true

theorem Freed.supervisor (h : Freed w) (hm : Supervisor.Move w x w') : Freed w' := by
  unfold Freed at h ⊢
  cases hm with
  | gotControl =>
    rcases w.sup.handleControl_cases
      (.ofBytes (w.toSup.pending.take headerSize)) with he | ⟨he, -⟩ | ⟨he, -⟩ | ⟨he, -⟩ <;>
      grind -linarith
  | @gotStatus r => cases r <;> grind -linarith
  | waitedA site | waitAFailed site => cases site <;> grind -linarith
  | @sent caller | @sendFailed _ caller | @openedKill caller | @killWritten caller
  | @killDenied _ caller | @killFailed _ caller | @removed caller | @removeBusy caller
  | @removeDenied caller | @removeFailed caller =>
    cases caller <;> grind -linarith
  | _ => grind -linarith

theorem Freed.keep (h : Freed w) (hm : Move w a w') : Freed w' := by
  cases hm with
  | supervisor hm => exact h.supervisor hm
  | runner hm =>
    rcases hm.sup with hs | ⟨-, -, hs⟩
    · unfold Freed at h ⊢
      rw [hs, hm.released]
      exact h
    · unfold Freed
      rw [hs]
      rintro ⟨⟩
  | childA hm =>
    unfold Freed at h ⊢
    rw [hm.sup, hm.released_eq]
    exact h
  | childB hm =>
    unfold Freed at h ⊢
    rw [hm.sup, hm.released]
    exact h
  | diedSupervisor => rintro ⟨⟩
  | _ => exact h

theorem Supervisor.Move.toSup_sent (hm : Supervisor.Move w x w') :
    w'.toSup.sent = w.toSup.sent := by
  cases hm with
  | gotControl => exact Channel.sent_take _ _
  | waitedA site | waitAFailed site => cases site <;> rfl
  | _ => rfl

/-- Nobody is killed but on a `Terminate`, and Child A ends as Child B did. -/
structure Unforced (w : World) : Prop where
  asked : w.toSup.sent ≠ [] → w.runner.result.wall_time_limit_exceeded = true
  killed : w.killed.childA = true → w.toSup.sent ≠ [] ∨ ∃ s, w.childA = .exited s
  left : ∀ s, w.childA = .exited s → w.toSup.sent ≠ [] ∨
    ∃ b_status, w.childB = .exited b_status ∧ s = ChildA.mirror b_status

namespace Unforced

variable {ms taken unread : List Message} {begun : Option Message}

/-- The others neither ask nor kill. -/
theorem quiet (h : Unforced w) (hl : Lineage w) (hm : Move w a w')
    (hrunner : w'.runner = w.runner) (hsent : w'.toSup.sent = w.toSup.sent)
    (hkilled : w'.killed.childA = w.killed.childA)
    (hA : ∀ s, w'.childA = .exited s → w.childA = .exited s ∨ w.toSup.sent ≠ [] ∨
      ∃ b_status, w'.childB = .exited b_status ∧ s = ChildA.mirror b_status) : Unforced w' := by
  refine ⟨?_, fun hk => ?_, fun s hs => ?_⟩
  · rw [hsent, hrunner]
    exact h.asked
  · rw [hsent]
    exact (h.killed (hkilled ▸ hk)).imp_right fun ⟨s, hs⟩ => ⟨s, hm.exitedA hl hs⟩
  · rw [hsent]
    rcases hA s hs with hs | hs
    · exact (h.left s hs).imp_right fun ⟨b_status, hB, he⟩ => ⟨b_status, hm.exitedB hl hB, he⟩
    · exact hs

theorem runner (h : Unforced w) (hwatch : w.runner.pc.watching = true)
    (hm : Runner.Move w x w') : Unforced w' := by
  have hkilled : w'.killed.childA = w.killed.childA := by
    cases hm with
    | killWritten hpc => simp [hpc, RunnerPc.watching] at hwatch
    | _ => rfl
  have hsent : w'.toSup.sent = w.toSup.sent ∨
      w'.runner.result.wall_time_limit_exceeded = true ∧ w'.toSup.sent ≠ [] := by
    cases hm with
    | sent site =>
      cases site with
      | deadline => exact .inr ⟨rfl, by simp [terminate_ne_nil]⟩
      | cleanup hpc => simp [hpc, RunnerPc.watching] at hwatch
    | _ => exact .inl rfl
  have hmono (hs : w.toSup.sent ≠ []) : w'.toSup.sent ≠ [] := by
    rcases hsent with heq | ⟨-, hne⟩
    · rwa [heq]
    · exact hne
  refine ⟨fun hs => ?_, fun hk => ?_, fun s hs => ?_⟩
  · rcases hsent with heq | ⟨hexceeded, -⟩
    · rcases Findings.exceeded_of_move hm with hsame | ⟨-, hexceeded⟩
      · rw [hsame]
        exact h.asked (heq ▸ hs)
      · exact hexceeded
    · exact hexceeded
  · rw [hm.childA]
    exact (h.killed (hkilled ▸ hk)).imp_left hmono
  · rw [hm.childA] at hs
    rw [hm.childB]
    exact (h.left s hs).imp_left hmono

theorem childA (h : Unforced w) (hl : Lineage w) (hr : Recorded w) (hx : x.fails = false)
    (hfree : w.released = false → w.sup.holdsSync = false → w.childA ≠ .awaitRelease)
    (hm : ChildA.Move w x w') : Unforced w' := by
  refine h.quiet hl (.childA hm) hm.runner (by rw [hm.toSup]) (by rw [hm.killed]) fun s hs => ?_
  cases hm with
  | again => cases hx
  | abandoned hpc hheld =>
    rcases hheld with ⟨hheld, hsync⟩ | ⟨e, rfl⟩
    · exact absurd hpc (hfree hheld hsync)
    · cases hx
  | toldControl hpc | toldStatus hpc | reportLost hpc => exact absurd hpc (hr.silentA _ _)
  | @left b_status hpc =>
    cases hs
    exact .inr (.inr ⟨b_status, hr.leave b_status (.inr hpc), rfl⟩)
  | @setupDone _ rest =>
    rcases ChildA.next_cases rest with hn | ⟨call, rest', hn⟩ <;> simp [hn] at hs
  | @forwarded b_status _ rest =>
    dsimp only at hs
    split at hs <;> cases hs
  | _ => cases hs

/-- A kill by the supervisor has been asked for. -/
theorem killed_of_supervisor (hm : Supervisor.Move w x w') (ha : Asked w)
    (hs : w.sup.pc.sound = true) (hk : w'.killed.childA = true) :
    w.killed.childA = true ∨ w.toSup.sent ≠ [] := by
  cases hm with
  | killedA hpc => rcases hpc with ⟨hpc, -⟩ | ⟨hpc, -⟩ <;> simp [hpc, SupervisorPc.sound] at hs
  | @killWritten caller hpc =>
    cases caller with
    | loop => exact .inr (ha.killing (.inr hpc))
    | failure => simp [hpc, SupervisorPc.sound] at hs
  | _ => exact .inl hk

theorem supervisor (h : Unforced w) (hl : Lineage w) (ha : Asked w)
    (hs : (∀ s, w.childA ≠ .exited s) → w.sup.pc.sound = true) (hm : Supervisor.Move w x w') :
    Unforced w' := by
  have hsent := hm.toSup_sent
  refine ⟨?_, fun hk => ?_, fun s hA => ?_⟩
  · rw [hsent, hm.runner]
    exact h.asked
  · rw [hsent]
    by_cases hA : ∃ s, w.childA = .exited s
    · obtain ⟨s, hA⟩ := hA
      exact .inr ⟨s, Move.exitedA hl (.supervisor hm) hA⟩
    · have hsound := hs fun s hs => hA ⟨s, hs⟩
      rcases killed_of_supervisor hm ha hsound hk with hk | hne
      · exact .inl ((h.killed hk).resolve_right hA)
      · exact .inl hne
  · have hbefore : w.childA = .exited s := by
      rcases hm.phases with ⟨-, heq, -, -⟩ | ⟨-, -, heq, -, -⟩ | ⟨-, -, heq, -⟩ | ⟨-, heq, -, -⟩
      · rwa [heq] at hA
      · simp [heq] at hA
      · rwa [heq] at hA
      · rwa [heq] at hA
    rw [hsent, hm.childB]
    exact h.left s hbefore

theorem init (q : Request) : Unforced (.init q) := by
  constructor <;> simp [World.init]

end Unforced

/-! ## The whole run -/

/-- What a run without a fault keeps. -/
structure Account (usages : List Rusage) (ms : List Message) (w : World) : Prop where
  lineage : Lineage w
  listening : Listening w
  asked : Asked w
  freed : Freed w
  unforced : Unforced w
  reported : Reported w
  billed : Billed usages w
  unfailing : Unfailing ms w
  session : Session ms w
  paid : Paid usages ms w

namespace Account

variable {usages : List Rusage} {ms : List Message}

/-- As long as Child A is there, the session is open. -/
theorem live (h : Account usages ms w) (hA : ∀ s, w.childA ≠ .exited s) :
    ∃ taken unread begun, Live ms taken unread begun w := by
  rcases h.session with hlive | hsettled
  · exact hlive
  · cases hsettled.terminal with
    | failed hm =>
      obtain ⟨m, hmem, htype⟩ := hm
      exact absurd htype (h.unfailing.sent m hmem)
    | ended hm =>
      obtain ⟨m, hmem, htype⟩ := hm
      obtain ⟨p, -, -, raw_status, hexited, -⟩ := h.paid m hmem htype
      exact absurd hexited (hA raw_status)

/-- Child A is not left without its release. -/
theorem not_stranded (h : Account usages ms w) (hheld : w.released = false)
    (hsync : w.sup.holdsSync = false) : w.childA ≠ .awaitRelease := by
  intro hpc
  obtain ⟨taken, unread, begun, hlive⟩ := h.live (by simp [hpc])
  exact hlive.not_waiting h.lineage h.freed hheld hsync hpc

theorem not_runnerKills (h : Account usages ms w) : runnerKills w a = false := by
  unfold runnerKills
  split
  · split
    · rename_i hpc
      rcases h.session.watching with hwatch | hpc'
      · simp [hpc, RunnerPc.watching] at hwatch
      · simp [hpc] at hpc'
    · rfl
  · rfl

theorem unforced_keep (h : Account usages ms w) (hb : blameless w a = true)
    (hm : Move w a w') : Unforced w' := by
  have hl := h.lineage
  have hu := h.unforced
  cases hm with
  | runner hm =>
    rcases h.session.watching with hwatch | hpc
    · exact hu.runner hwatch hm
    · rw [hm.of_returned hpc]
      exact hu
  | supervisor hm =>
    refine hu.supervisor hl h.asked (fun hA => ?_) hm
    obtain ⟨taken, unread, begun, hlive⟩ := h.live hA
    exact hlive.manned.sound
  | @childA x _ hm =>
    exact hu.childA hl h.unfailing.recorded (by cases x <;> first | rfl | cases hb)
      h.not_stranded hm
  | childB hm =>
    refine hu.quiet hl (.childB hm) hm.runner (by rw [hm.toSup]) (by rw [hm.killed]) ?_
    rw [hm.childA]
    exact fun s hs => .inl hs
  | diedA hk ha =>
    refine hu.quiet hl (.diedA hk ha) rfl rfl rfl fun s hs => .inr (.inl ?_)
    refine (hu.killed hk).resolve_right ?_
    rintro ⟨s', hs'⟩
    simp [hs', ChildA.alive] at ha
  | diedSupervisor hk ha =>
    exact hu.quiet hl (.diedSupervisor hk ha) rfl rfl rfl fun s hs => .inl hs
  | diedB hk ha => exact hu.quiet hl (.diedB hk ha) rfl rfl rfl fun s hs => .inl hs
  | finished hpc => exact hu.quiet hl (.finished hpc) rfl rfl rfl fun s hs => .inl hs
  | _ => exact ⟨hu.asked, hu.killed, hu.left⟩

theorem keep (h : Account usages ms w) (hb : blameless w a = true) (hheard : unheard w a = false)
    (hc : cutShort w a = false) (ht : step w a = some w') :
    Account (usages ++ childUsage w a) (ms ++ completed w a) w' := by
  have hm := moves_step ht
  have hr := h.unfailing.recorded
  exact {
    lineage := h.lineage.keep hm
    listening := h.listening.keep h.lineage hm
    asked := h.asked.keep h.lineage h.not_runnerKills hm
    freed := h.freed.keep hm
    unforced := h.unforced_keep hb hm
    reported := h.reported.keep h.lineage hr hm
    billed := h.billed.keep h.lineage h.reported hm
    unfailing := h.unfailing.keep h.lineage h.listening hb ht
    session := h.session.keep h.lineage h.listening (orderly_of_blameless hr hb hheard hc) ht
    paid := h.paid.keep h.billed h.lineage hm }

theorem init (q : Request) : Account [] [] (.init q) where
  lineage := .init q
  listening := .init q
  asked := .init q
  freed := by rintro ⟨⟩
  unforced := .init q
  reported := .init q
  billed := .init q
  unfailing := .init q
  session := .init q
  paid := by rintro m ⟨⟩

theorem reach (h : Runs q acts w)
    (hs : Machine.Along step (fun s a => blameless s a = true ∧ unheard s a = false ∧
      cutShort s a = false) (.init q) acts) :
    ∃ ms, Account (Machine.collect step childUsage (.init q) acts) ms w := by
  have hrun := Machine.run_collect (f := childUsage)
    (I := fun usages s => ∃ ms, Account usages ms s)
    (fun usages s a t hp hacc ht => ?_) ⟨[], init q⟩ hs h
  · simpa using hrun
  · obtain ⟨ms, hacc⟩ := hacc
    exact ⟨_, hacc.keep hp.1 hp.2.1 hp.2.2 ht⟩

/-- What `run` returns is what the supervisor was told when it reaped Child A. -/
theorem settled (h : Account usages ms w) (hf : Findings q w) (hpc : w.runner.pc = .returned) :
    ∃ p, Told usages w p ∧ w.runner.submission_finished = true ∧
      w.runner.result.status.infrastructure = false ∧ w.runner.status = p.wait_status ∧
      w.runner.usage = p.usage := by
  have hno : ∀ m ∈ ms, m.type ≠ .setupFailed := h.unfailing.sent
  have hstatus : w.runner.result.status.infrastructure = false := by
    rcases h.session.returned hpc with ⟨⟨m, hm, htype⟩, -⟩ | ⟨-, -, hs | hs | hs⟩
    · exact absurd htype (hno m hm)
    all_goals rw [hs]; rfl
  obtain ⟨now, hfinished, -⟩ := hf.returned hpc hstatus
  obtain ⟨before, payload, hdecoded, hwait, husage⟩ := hf.told hfinished
  obtain ⟨taken, hpre, hpairs, -⟩ := h.session.decoded
  have hlast : (SandboxMessageType.terminated.code, payload) ∈ taken.map Message.pair := by
    rw [← hpairs, hdecoded]
    simp
  obtain ⟨m, hm, hpair⟩ := List.mem_map.1 hlast
  obtain ⟨hcode, rfl⟩ := Prod.mk.inj hpair
  obtain ⟨p, rfl, htold⟩ := h.paid m (hpre.subset hm) (SandboxMessageType.code_inj hcode)
  have hp : SandboxTerminatedPayload.ofBytes (Message.terminated p).payload = p :=
    p.ofBytes_bytes
  rw [hp] at hwait husage
  exact ⟨p, htold, hfinished, hstatus, hwait, husage⟩

end Account

/-- `finalize_status` and the classification cannot tell two statuses of the same
end apart. -/
theorem SameEnd.report {s t : Word32} (h : SameEnd s t) (exceeded : Bool) (elapsed : Int)
    (usage : Rusage) (out err : List Byte) :
    ExecutionResult.report exceeded elapsed s usage out err =
      ExecutionResult.report exceeded elapsed t usage out err := by
  have hcode : (if WIFEXITED s then WEXITSTATUS s else 1) =
      if WIFEXITED t then WEXITSTATUS t else 1 := by
    rw [h.exited]
    split
    · rename_i he
      exact h.code he
    · rfl
  have hsignal : (if WIFSIGNALED t then WTERMSIG s else 0) =
      if WIFSIGNALED t then WTERMSIG t else 0 := by
    split
    · rename_i hs
      exact h.signal hs
    · rfl
  simp only [ExecutionResult.report, hcode, h.signaled, hsignal]

/-- The result is the report of what happened. -/
theorem Account.published {usages : List Rusage} {ms : List Message} (h : Account usages ms w)
    (hf : Findings q w) (hcapture : Capture w) (hpc : w.runner.pc = .returned) :
    ∃ (exceeded : Bool) (now : Int) (status : Word32) (usage : Rusage),
      w.runner.result = .report exceeded (now - w.runner.start_time) status usage w.stdout.taken
        w.stderr.taken ∧
      usages = [usage] ∧ w.runner.start_time ≤ now ∧ now ≤ w.clock ∧ Witnessed w status ∧
      (exceeded = true → w.runner.deadline ≤ now) ∧
      (exceeded = false → w.toSup.sent = [] ∧ ∃ b_status, w.childB = .exited b_status ∧
        (WIFEXITED b_status = true ∨ WIFSIGNALED b_status = true →
          w.runner.result = .report false (now - w.runner.start_time) b_status usage
            w.stdout.taken w.stderr.taken)) := by
  obtain ⟨p, htold, hfinished, hstatus, hwait, husage⟩ := h.settled hf hpc
  obtain ⟨now, -, hstart, hnow, hlate, hresult⟩ := hf.returned hpc hstatus
  rw [hwait, husage, hcapture.out, hcapture.err] at hresult
  refine ⟨_, now, p.wait_status, p.usage, hresult, htold.1, hstart, hnow, htold.2, hlate, ?_⟩
  intro hexceeded
  have hunasked : w.toSup.sent = [] := by
    by_contra hne
    rw [h.unforced.asked hne] at hexceeded
    cases hexceeded
  obtain ⟨raw_status, hA, hp⟩ := htold.2
  obtain ⟨b_status, hB, rfl⟩ := (h.unforced.left raw_status hA).resolve_left (by simp [hunasked])
  refine ⟨hunasked, b_status, hB, fun hend => ?_⟩
  rw [hresult, hexceeded]
  refine SameEnd.report ?_ _ _ _ _ _
  rcases hp with hp | hp
  · rw [hp]
    exact sameEnd_mirror hend
  · rw [hB] at hp
    cases hp
    exact .refl _

/-- Without a fault, and unless `Terminate` finds nobody or cuts a wait status short,
`run` publishes what happened: the usage with which Child A was reaped, the bytes
that were taken from the pipes, and within the wall limit the end of Child B. -/
theorem published_result (h : Runs q acts w)
    (hs : Machine.Along step (fun s a => blameless s a = true ∧ unheard s a = false ∧
      cutShort s a = false) (.init q) acts)
    (hpc : w.runner.pc = .returned) :
    ∃ (exceeded : Bool) (now : Int) (status : Word32) (usage : Rusage),
      w.runner.result = .report exceeded (now - w.runner.start_time) status usage w.stdout.taken
        w.stderr.taken ∧
      Machine.collect step childUsage (.init q) acts = [usage] ∧
      w.runner.start_time ≤ now ∧ now ≤ w.clock ∧ Witnessed w status ∧
      (exceeded = true → w.runner.deadline ≤ now) ∧
      (exceeded = false → w.toSup.sent = [] ∧ ∃ b_status, w.childB = .exited b_status ∧
        (WIFEXITED b_status = true ∨ WIFSIGNALED b_status = true →
          w.runner.result = .report false (now - w.runner.start_time) b_status usage
            w.stdout.taken w.stderr.taken)) := by
  obtain ⟨ms, hacc⟩ := Account.reach h hs
  exact hacc.published (Findings.reach h) (Capture.reach h) hpc

/-- A submission that exits with code 3. -/
theorem published_result_exits :
    ∃ w now, Runs ⟨[], 1000, 0⟩ (completes 0x300) w ∧
      w.runner.result = .report false (now - w.runner.start_time) 0x300 .zero [] [] := by
  obtain ⟨w, hw, hpc, hexceeded, hB, hout, herr⟩ : ∃ w, Runs ⟨[], 1000, 0⟩ (completes 0x300) w ∧
      w.runner.pc = .returned ∧ w.runner.result.wall_time_limit_exceeded = false ∧
      w.childB = .exited 0x300 ∧ w.stdout.taken = [] ∧ w.stderr.taken = [] :=
    exists_run (by decide +kernel)
  obtain ⟨exceeded, now, status, usage, hresult, husage, -, -, -, -, hwithin⟩ :=
    published_result hw (by decide +kernel) hpc
  have hfalse : exceeded = false := by
    rw [← hexceeded, hresult]
    rfl
  obtain ⟨-, b_status, hB', hend⟩ := hwithin hfalse
  rw [hB] at hB'
  cases hB'
  have hzero : Machine.collect step childUsage (.init ⟨[], 1000, 0⟩) (completes 0x300) =
      [.zero] := by
    decide +kernel
  rw [hzero] at husage
  cases husage
  refine ⟨w, now, hw, ?_⟩
  rw [hend (.inl (by decide)), hout, herr]

end OnlineJudge
