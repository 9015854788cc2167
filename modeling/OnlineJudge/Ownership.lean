import OnlineJudge.Closing
import OnlineJudge.Reaping

/-!
# The descriptors over a run

No descriptor is touched after its close. All of them are closed when `run`
returns, but for the ends it leaves to the supervisor: these it closes only when
`Ready` has arrived.
-/

namespace OnlineJudge

open Descriptor

variable {q : Request} {acts : List Act} {w w' : World} {x : Answer} {a : Act}

/-! ## Every run -/

/-- Reads and writes go to what is open. -/
theorem isOpen_of_touched {d : Descriptor} (hf : Flagged w.runner)
    (h : (Runner.touches w).count d ≠ 0) : d.isOpen w.runner = true := by
  have hmem : d ∈ Runner.touches w := List.count_pos_iff.1 (Nat.pos_of_ne_zero h)
  unfold Runner.touches at hmem
  unfold Flagged at hf
  cases hpc : w.runner.pc <;> simp only [hpc, List.not_mem_nil, List.mem_singleton] at hmem hf <;>
    subst hmem
  case receiveHeader | receivePayload => exact hf.1.1
  case writeStdin | readStdout | readStderr => exact hf.2
  all_goals exact hf.1

/-- Within the input, as long as it is written. -/
theorem Runner.Move.input_offset (hm : Runner.Move w x w') (hf : Flagged w.runner)
    (h : w.runner.stdin_open = true → w.runner.input_offset ≤ w.runner.input.length) :
    w'.runner.input = w.runner.input ∧
      (w'.runner.stdin_open = true → w'.runner.input_offset ≤ w'.runner.input.length) := by
  cases hm with
  | wrote hpc hn =>
    refine ⟨rfl, fun hopen => ?_⟩
    have := h (by simp [Runner.wroteStdin, Runner.advanceInput, Runner.go] at hopen; exact hopen.1)
    have := hn.2
    simp [Runner.chunk] at this
    simp [Runner.wroteStdin, Runner.advanceInput, Runner.go]
    omega
  | got site =>
    cases site with
    | header hpc | payload hpc =>
      simp only [Flagged, hpc] at hf
      have hoffset := h hf.1.2.1
      clear h hf
      grind -linarith
    | _ => clear hf; grind -linarith
  | lost site => clear hf; cases site <;> grind -linarith
  | sent site | sendFailed site => clear hf; cases site <;> grind -linarith
  | waited site | waitFailed site =>
    clear hf
    cases site with
    | @cleanup site => rcases site with _ | _ | _ | _ <;> grind -linarith
    | _ => grind -linarith
  | @killFailed _ site | @foundEmpty site | @foundPopulated _ site | @removeSkipped _ site
  | @removed site | @removeFailed _ site =>
    clear hf
    rcases site with _ | _ | _ | _ <;> grind -linarith
  | _ => clear hf; grind -linarith

/-- The fork of the supervisor ends the setup of the runner. -/
structure Forking (w : World) : Prop where
  forked : w.sup.pc ≠ .unborn → ∀ n, w.runner.pc ≠ .setup n
  unforked : w.sup.pc = .unborn → (∃ n, w.runner.pc = .setup n) ∨ w.runner.pc = .returned

/-- What the descriptors rest on. -/
structure Tracked (w : World) : Prop extends Forking w where
  flagged : Flagged w.runner
  offset : w.runner.stdin_open = true → w.runner.input_offset ≤ w.runner.input.length
  size : w.runner.input.length < 2 ^ 63

theorem Forking.runner (h : Forking w) (hm : Runner.Move w x w') : Forking w' := by
  by_cases hu : w.sup.pc = .unborn
  · have hpc := h.unforked hu
    clear h
    cases hm with
    | again => exact ⟨fun hn => absurd hu hn, fun _ => hpc⟩
    | setupDone => exact ⟨fun hn => absurd hu hn, fun _ => .inl ⟨_, rfl⟩⟩
    | forked => exact ⟨fun _ => nofun, nofun⟩
    | setupFailed => exact ⟨fun hn => absurd hu hn, fun _ => .inr rfl⟩
    | got site | lost site => cases site <;> grind -linarith
    | sent site | sendFailed site => cases site <;> grind -linarith
    | waited site | waitFailed site => cases site <;> grind -linarith
    | _ => grind -linarith
  · have hsetup := h.forked hu
    have hsup : w'.sup = w.sup := by
      rcases hm.sup with hs | ⟨⟨n, hn⟩, -⟩
      · exact hs
      · exact absurd hn (hsetup n)
    refine ⟨fun _ n hn => ?_, fun hu' => absurd (hsup ▸ hu') hu⟩
    obtain ⟨⟨n', hn'⟩, -⟩ := hm.setup ⟨n, hn⟩
    exact hsetup n' hn'

/-- The setup, call by call. -/
theorem flagged_setup {n : Nat} (hf : Flagged w.runner) (hpc : w.runner.pc = .setup n)
    (hm : Runner.Move w x w') : Flagged w'.runner := by
  have hcall := hf
  simp only [Flagged, hpc] at hcall
  obtain ⟨⟨hc, hi, ho, he⟩, hu⟩ := hcall
  cases hm with
  | again => exact hf
  | @setupDone m hm =>
    rw [hm, RunnerPc.setup.injEq] at hpc
    subst hpc
    refine ⟨⟨?_, hi, ho, he⟩, hu⟩
    rw [hc]
    grind -linarith
  | @forked m hm hn =>
    rw [hm, RunnerPc.setup.injEq] at hpc
    subst hpc
    exact ⟨⟨by rw [hc]; simp; omega, hi, ho, he⟩, hu⟩
  | setupFailed => exact ⟨rfl, rfl, rfl, rfl⟩
  | got site | lost site => clear hf; cases site <;> simp_all
  | sent site | sendFailed site => clear hf; cases site <;> simp_all
  | waited site | waitFailed site => clear hf; cases site <;> simp_all
  | _ => clear hf; simp_all

namespace Tracked

theorem runner (h : Tracked w) (ht : Runner.step w x = some w') : Tracked w' := by
  have hm := Runner.moves ht
  obtain ⟨hinput, hoffset⟩ := hm.input_offset h.flagged h.offset
  refine ⟨h.toForking.runner hm, ?_, hoffset, hinput ▸ h.size⟩
  by_cases hn : ∃ n, w.runner.pc = .setup n
  · obtain ⟨n, hpc⟩ := hn
    exact flagged_setup h.flagged hpc hm
  · exact (closing_step h.flagged h.offset h.size (fun n hpc => hn ⟨n, hpc⟩) ht).flagged

theorem keep (h : Tracked w) (ht : step w a = some w') : Tracked w' := by
  cases a with
  | runner x => exact h.runner ht
  | _ =>
    obtain ⟨x, hx, -⟩ | ⟨hr, hs, -⟩ := (moves_step ht).runner_or_apart
    · cases hx
    · exact ⟨⟨by rw [hr, ← hs.ne]; exact h.forked, by rw [hr, ← hs]; exact h.unforked⟩,
        hr ▸ h.flagged, hr ▸ h.offset, hr ▸ h.size⟩

theorem init (q : Request) (hsize : q.input.length < 2 ^ 63) : Tracked (.init q) :=
  ⟨⟨fun hn => absurd rfl hn, fun _ => .inl ⟨0, rfl⟩⟩, ⟨⟨rfl, rfl, rfl, rfl⟩, rfl, rfl⟩,
    fun _ => Nat.zero_le _, hsize⟩

end Tracked

/-- The lifetimes a descriptor may have. Without a fork, it was closed again if
it was created. -/
def Stands (d : Descriptor) (w : World) (stage : Lifetime) : Prop :=
  match w.runner.pc with
  | .setup n => stage = if d.creation < n then .held else .unborn
  | _ => if w.sup.pc = .unborn then stage ≠ .held else stage = .ofOpen (d.isOpen w.runner)

theorem stands_of_forked {d : Descriptor} {stage : Lifetime} (hs : w.sup.pc ≠ .unborn)
    (hn : ∀ n, w.runner.pc ≠ .setup n) :
    Stands d w stage ↔ stage = .ofOpen (d.isOpen w.runner) := by
  unfold Stands
  split
  · rename_i n hpc
    exact absurd hpc (hn n)
  · rw [if_neg hs]

theorem count_filter_all (d : Descriptor) (p : Descriptor → Bool) :
    (all.filter p).count d = if p d then 1 else 0 := by
  have hone : all.count d = 1 := by cases d <;> rfl
  split <;> rename_i hp
  · rw [List.count_filter hp, hone]
  · exact List.count_eq_zero_of_not_mem fun hmem => hp (List.mem_filter.1 hmem).2

theorem creation_lt (d : Descriptor) : d.creation < 5 := by cases d <;> decide

/-- The setup creates one pair after another; a failure closes those there are. -/
theorem setup_follow {d : Descriptor} {n : Nat} {stage : Lifetime} (h : Tracked w)
    (hpc : w.runner.pc = .setup n) (hs : Stands d w stage) (ht : Runner.step w x = some w') :
    ∃ stage', Machine.run Lifetime.step stage (descriptorHandlings d w (.runner x)) = some stage' ∧
      Stands d w' stage' := by
  simp only [Stands, hpc] at hs
  subst hs
  have hcalls : descriptorHandlings d w (.runner x) =
      List.replicate ((Runner.creates w x).count d) .acquired ++
        List.replicate ((Runner.setupCloses n x).count d) .released := by
    simp [descriptorHandlings, Runner.touches, Runner.closes, hpc]
  rw [hcalls]
  simp only [Runner.step, hpc] at ht
  simp only [Runner.creates, hpc]
  have hlt := creation_lt d
  cases x <;> simp only [Runner.setup, reduceCtorEq] at ht
  · split at ht <;> rename_i hn <;> cases ht <;>
      simp only [if_true, Runner.setupCloses, hn, if_false, count_filter_all]
    · refine ⟨if d.creation < n + 1 then .held else .unborn, ?_, rfl⟩
      rcases Nat.lt_trichotomy d.creation n with hc | hc | hc
      · simp [hc, Nat.ne_of_lt hc, Nat.lt_succ_of_lt hc]
      · simp [hc, Machine.run, Lifetime.step]
      · simp [Nat.ne_of_gt hc, Nat.not_lt_of_gt hc, Nat.not_lt.2 (Nat.succ_le_of_lt hc)]
    · have hc : d.creation < n := by omega
      obtain ⟨⟨hopen, hi, ho, he⟩, hu⟩ : w.runner.Opened (decide (1 < n)) ∧ w.runner.Unheard := by
        have := h.flagged
        simpa only [Flagged, hpc] using this
      refine ⟨_, ?_, (stands_of_forked (by simp [Supervisor.go]) (by simp)).2 rfl⟩
      have hstarted := hu.started
      have hone : 1 < n := by omega
      have hne : d.creation ≠ n := Nat.ne_of_lt hc
      cases d <;>
        simp [hc, hne, isOpen, Runner.started, hu.1, hopen, hone, hi, ho, he, Lifetime.ofOpen,
          Machine.run, Lifetime.step]
  · cases ht
    have hunborn : w.sup.pc = .unborn := by_contra fun hs => h.forked hs n hpc
    refine ⟨if d.creation < n then .ended else .unborn, ?_, ?_⟩
    · simp only [reduceCtorEq, if_false, Runner.setupCloses, count_filter_all]
      by_cases hc : d.creation < n <;> simp [hc, Machine.run, Lifetime.step]
    · simp only [Stands, Runner.runnerFailed, Runner.give, hunborn, if_true]
      split <;> rintro ⟨⟩

theorem follow {d : Descriptor} {stage : Lifetime} (h : Tracked w) (hs : Stands d w stage)
    (ht : step w a = some w') :
    ∃ stage', Machine.run Lifetime.step stage (descriptorHandlings d w a) = some stage' ∧
      Stands d w' stage' := by
  cases a with
  | runner x =>
    have hrun : Runner.step w x = some w' := ht
    by_cases hn : ∃ n, w.runner.pc = .setup n
    · obtain ⟨n, hpc⟩ := hn
      exact setup_follow h hpc hs hrun
    have hn' : ∀ n, w.runner.pc ≠ .setup n := fun n hpc => hn ⟨n, hpc⟩
    have hforked : w.sup.pc ≠ .unborn := fun hu => by
      rcases h.unforked hu with hpc | hpc
      · exact hn hpc
      · simp [Runner.step, hpc] at hrun
    have hclosing := closing_step h.flagged h.offset h.size hn' hrun
    have hm := Runner.moves hrun
    have hforking := h.toForking.runner hm
    have hsup : w'.sup = w.sup := by
      rcases hm.sup with hs | ⟨hpc, -⟩
      · exact hs
      · exact absurd hpc hn
    rw [stands_of_forked hforked hn'] at hs
    subst hs
    refine ⟨_, ?_, (stands_of_forked (hsup ▸ hforked) (hforking.forked (hsup ▸ hforked))).2 rfl⟩
    have hcreates : (Runner.creates w x).count d = 0 := by
      unfold Runner.creates
      split
      · rename_i n hpc
        exact absurd hpc (hn' n)
      · rfl
    simp only [descriptorHandlings, hcreates, List.replicate_zero, List.nil_append]
    exact Lifetime.run_uses_releases (isOpen_of_touched h.flagged) (hclosing.follows d)
  | _ =>
    refine ⟨stage, rfl, ?_⟩
    obtain ⟨x, hx, -⟩ | ⟨hr, hsup, -⟩ := (moves_step ht).runner_or_apart
    · cases hx
    · simpa only [Stands, hr, hsup] using hs

/-- What a run does to a descriptor. -/
def descriptorTrace (q : Request) (acts : List Act) (d : Descriptor) : List Handling :=
  Machine.collect step (descriptorHandlings d) (.init q) acts

/-- No descriptor is read, written or closed after its close, at any time. -/
theorem stands_reach (h : Runs q acts w) (hsize : q.input.length < 2 ^ 63) (d : Descriptor) :
    ∃ stage, Lifetime.after (descriptorTrace q acts d) = some stage ∧ Stands d w stage :=
  Lifetime.exists_after_collect (P := fun s _ => Tracked s) (I := fun s stage => Stands d s stage)
    (descriptorHandlings d) (fun _ _ _ _ hw hs ht => follow hw hs ht)
    (by cases d <;> rfl) (Machine.along_keeps (fun _ _ _ hw ht => hw.keep ht) (.init q hsize)) h

/-! ## The first message -/

def RunnerPc.receiving : RunnerPc → Bool
  | receiveHeader | receivePayload _ => true
  | _ => false

/-- After a first message that is not `Ready`, or none. -/
def RunnerPc.unstarted : RunnerPc → Bool
  | reapFailed | returned => true
  | killSupervisor site | waitSupervisor site | openKill site | writeKill site
  | checkEmpty site _ | lastCheck site | accessCgroup site | removeCgroup site => !site.afterReady
  | _ => false

attribute [grind =] RunnerPc.unstarted

/-- No payload that follows could make this the header of `Ready`. -/
def SandboxMessageHeader.unready (header : SandboxMessageHeader) : Bool :=
  readySize < header.payload_size.toNat ||
    header.payload_size = 0 && header.type ≠ SandboxMessageType.ready.code

/-- The call ends the wait for the first message without a `Ready`. -/
def unready (w : World) : Act → Bool
  | .runner x =>
    match w.runner.pc with
    | .receiveHeader =>
      x.failsWith (· ≠ EINTR) || x = .ok && (w.toRunner.pending.length < headerSize ||
        (SandboxMessageHeader.ofBytes (w.toRunner.pending.take headerSize)).unready)
    | .receivePayload header =>
      x.failsWith (· ≠ EINTR) || x = .ok &&
        (w.toRunner.pending.length < header.payload_size.toNat ||
          header.type ≠ SandboxMessageType.ready.code)
    | _ => false
  | _ => false

def Unstarted (r : Runner) : Prop := r.pc.unstarted = true ∧ r.started = false

/-- What a call of `receive_message` leads to. -/
def Heard (unready : Bool) (r : Runner) : Prop :=
  if unready then Unstarted r else r.pc.receiving = true ∨ r.started = true

section
variable {r : Runner} {header : SandboxMessageHeader}

theorem started_received {payload : List Byte} (hu : r.Unheard) :
    (r.received header payload).started = decide (header.type = SandboxMessageType.ready.code) := by
  have hdecode : (r.decode header.type payload).started =
      decide (header.type = SandboxMessageType.ready.code) := by
    simp [hu.1, hu.started]
  rw [← hdecode]
  unfold Runner.received Runner.dispatch
  split
  · rfl
  · split <;> rfl

theorem heard_received {payload : List Byte} (hu : r.Unheard) :
    Heard (header.type ≠ SandboxMessageType.ready.code) (r.received header payload) := by
  have hstarted : (r.received header payload).started = _ := started_received hu
  unfold Heard
  by_cases hr : header.type = SandboxMessageType.ready.code
  · simp [hr, hstarted]
  · rw [if_pos (by simpa using hr)]
    refine ⟨?_, by simpa [hr] using hstarted⟩
    unfold Runner.received Runner.dispatch
    rw [if_neg hr]
    split <;> rfl

theorem heard_receiveFailed (hu : r.Unheard) : Heard true r.receiveFailed := ⟨rfl, hu.started⟩

theorem heard_headerReceived (hu : r.Unheard) : Heard header.unready (r.headerReceived header) := by
  unfold Runner.headerReceived SandboxMessageHeader.unready
  split <;> rename_i hsize
  · simpa [hsize] using heard_receiveFailed hu
  · split <;> rename_i hzero
    · have hreceived : Heard (header.type ≠ SandboxMessageType.ready.code) (r.received header []) :=
        heard_received hu
      simpa [hsize, hzero] using hreceived
    · rw [decide_eq_false hsize, decide_eq_false hzero]
      exact .inl rfl

end

/-- A read that succeeds or fails decides as its outcome does. -/
theorem heard_read {size : Nat} {yes : List Byte → Runner} {no : Runner} {bad : List Byte → Bool}
    (hrec : w.runner.pc.receiving = true) (hyes : ∀ bytes, Heard (bad bytes) (yes bytes))
    (hno : Heard true no) (h : Runner.readControl w size yes no x = some w') :
    Heard (x.failsWith (· ≠ EINTR) || x = .ok && (w.toRunner.pending.length < size ||
      bad (w.toRunner.pending.take size))) w'.runner := by
  cases x <;> simp only [Runner.readControl, reduceCtorEq] at h
  · split at h <;> rename_i hlen
    · cases h
      simpa [Answer.failsWith, Nat.not_lt.2 hlen] using hyes (w.toRunner.pending.take size)
    · split at h <;> cases h
      simpa [Answer.failsWith, Nat.not_le.1 hlen] using hno
  · split at h <;> rename_i he <;> cases h
    · simp [Answer.failsWith, he, Heard, hrec]
    · simpa [Answer.failsWith, he] using hno

theorem heard_step (h : Tracked w) (hrec : w.runner.pc.receiving = true)
    (ht : Runner.step w x = some w') : Heard (unready w (.runner x)) w'.runner := by
  have hcall := h.flagged
  unfold Runner.step at ht
  unfold unready
  cases hpc : w.runner.pc <;> simp only [hpc, RunnerPc.receiving, reduceCtorEq] at hrec
  case receiveHeader =>
    simp only [hpc, Flagged] at ht hcall ⊢
    exact heard_read (by simp [hpc, RunnerPc.receiving])
      (fun bytes => heard_headerReceived hcall.2) (heard_receiveFailed hcall.2) ht
  case receivePayload header =>
    simp only [hpc, Flagged] at ht hcall ⊢
    exact heard_read (by simp [hpc, RunnerPc.receiving])
      (fun bytes => heard_received hcall.2) (heard_receiveFailed hcall.2) ht

/-- Nothing is received any more. -/
theorem Unstarted.move (h : Unstarted w.runner) (hm : Runner.Move w x w') :
    Unstarted w'.runner := by
  obtain ⟨hpc, hs⟩ := h
  suffices hgoal : w'.runner.pc.unstarted = true ∧ w'.runner.decoded = w.runner.decoded by
    exact ⟨hgoal.1, by rw [Runner.started, hgoal.2]; exact hs⟩
  clear hs
  cases hm with
  | got site | lost site => cases site <;> grind -linarith
  | sent site | sendFailed site => cases site <;> grind -linarith
  | waited site | waitFailed site =>
    cases site with
    | @cleanup site => rcases site with _ | _ | _ | _ <;> grind -linarith
    | _ => grind -linarith
  | @killFailed _ site | @foundEmpty site | @foundPopulated _ site | @removeSkipped _ site
  | @removed site | @removeFailed _ site =>
    rcases site with _ | _ | _ | _ <;> grind -linarith
  | _ => grind -linarith

/-- A run that missed its `Ready`. -/
def Missed (w : World) : Prop := Unstarted w.runner ∧ w.sup.pc ≠ .unborn

theorem Missed.keep (h : Missed w) (ht : step w a = some w') : Missed w' := by
  rcases (moves_step ht).runner_or_apart with ⟨x, rfl, hm⟩ | ⟨hr, hsup, -⟩
  · refine ⟨h.1.move hm, ?_⟩
    rcases hm.sup with hs | ⟨⟨n, hpc⟩, -⟩
    · rw [hs]
      exact h.2
    · have := h.1.1
      simp [hpc, RunnerPc.unstarted] at this
  · exact ⟨hr ▸ h.1, fun hu => h.2 (hsup.2 hu)⟩

/-- Once the supervisor is forked, the runner awaits `Ready` or has it. -/
def Awaiting (w : World) : Prop :=
  w.sup.pc ≠ .unborn → w.runner.pc.receiving = true ∨ w.runner.started = true

theorem Awaiting.keep (h : Awaiting w) (htr : Tracked w) (hn : unready w a = false)
    (ht : step w a = some w') : Awaiting w' := by
  intro hs
  rcases (moves_step ht).runner_or_apart with ⟨x, rfl, hm⟩ | ⟨hr, hsup, -⟩
  · rcases hm.sup with hsup | ⟨-, hpc, -⟩
    · rw [hsup] at hs
      have hrun : Runner.step w x = some w' := ht
      rcases h hs with hrec | hstarted
      · have hheard := heard_step htr hrec hrun
        rw [hn] at hheard
        exact hheard
      · have hclosing := closing_step htr.flagged htr.offset htr.size (htr.forked hs) hrun
        have := hclosing.follows stdin0
        simp [isOpen, hstarted] at this
        exact .inr this.2
    · exact .inl (by rw [hpc]; rfl)
  · rw [hr]
    exact h fun hu => hs (hsup.1 hu)

theorem missed_of_unready (h : Tracked w) (hu : unready w a = true) (ht : step w a = some w') :
    Missed w' := by
  cases a with
  | runner x =>
    have hrec : w.runner.pc.receiving = true := by
      unfold unready at hu
      cases hpc : w.runner.pc <;> simp_all [RunnerPc.receiving]
    have hheard := heard_step h hrec ht
    rw [hu] at hheard
    refine ⟨hheard, fun hs => ?_⟩
    have hborn : w.sup.pc ≠ .unborn := fun hs => by
      rcases h.unforked hs with ⟨n, hpc⟩ | hpc <;> simp [hpc, RunnerPc.receiving] at hrec
    rcases (Runner.moves ht).sup with hsup | ⟨⟨n, hpc⟩, -⟩
    · exact hborn (hsup ▸ hs)
    · simp [hpc, RunnerPc.receiving] at hrec
  | _ => cases hu

theorem missed_reach (h : Runs q acts w) (hsize : q.input.length < 2 ^ 63)
    (hn : ¬ Machine.Along step (fun s a => unready s a = false) (.init q) acts) : Missed w := by
  obtain ⟨pre, a, post, s, rfl, hs, hu⟩ := Machine.exists_of_not_along hn
  have htracked : Tracked s := Machine.run_keeps (fun _ _ _ hw ht => hw.keep ht) (.init q hsize) hs
  rw [Runs, Machine.run_append, hs, Option.bind_some] at h
  obtain ⟨t, ht, hr⟩ := Machine.run_cons.1 h
  exact Machine.run_keeps (fun _ _ _ hw ht => hw.keep ht)
    (missed_of_unready htracked (by simpa using hu) ht) hr

theorem awaiting_reach (h : Runs q acts w) (hsize : q.input.length < 2 ^ 63)
    (hn : Machine.Along step (fun s a => unready s a = false) (.init q) acts) : Awaiting w := by
  have hkeep := Machine.run_invariant (I := fun s => Tracked s ∧ Awaiting s)
    (fun _ _ _ hp hw ht => ⟨hw.1.keep ht, hw.2.keep hw.1 hp ht⟩)
    ⟨.init q hsize, fun hn => absurd rfl hn⟩ hn h
  exact hkeep.2

/-- By the time `run` returns it has closed every descriptor it created exactly
once, and touched none of them afterwards, just when no first message but
`Ready` made it give up: then `stdin_pipe[0]`, `stdout_pipe[1]` and
`stderr_pipe[1]` stay open. -/
theorem descriptors_closed_iff (hsize : q.input.length < 2 ^ 63) (h : Runs q acts w)
    (hpc : w.runner.pc = .returned) :
    (∀ d, Lifetime.Settled (descriptorTrace q acts d)) ↔
      Machine.Along step (fun s a => unready s a = false) (.init q) acts := by
  have htracked : Tracked w := Machine.run_keeps (fun _ _ _ hw ht => hw.keep ht) (.init q hsize) h
  obtain ⟨hc, hi, ho, he⟩ : w.runner.Shut := by
    have := htracked.flagged
    simpa only [Flagged, hpc] using this
  constructor
  · intro hsettled
    by_contra hn
    obtain ⟨⟨-, hstarted⟩, hborn⟩ := missed_reach h hsize hn
    obtain ⟨stage, hafter, hstands⟩ := stands_reach h hsize stdin0
    rw [stands_of_forked hborn (htracked.forked hborn)] at hstands
    refine (Lifetime.settled_iff hafter).1 (hsettled stdin0) ?_
    rw [hstands]
    simp [isOpen, hstarted, Lifetime.ofOpen]
  · intro hn d
    obtain ⟨stage, hafter, hstands⟩ := stands_reach h hsize d
    rw [Lifetime.settled_iff hafter]
    by_cases hborn : w.sup.pc = .unborn
    · simpa only [Stands, hpc, hborn, if_true] using hstands
    · rw [stands_of_forked hborn (htracked.forked hborn)] at hstands
      have hstarted : w.runner.started = true := by
        simpa [hpc, RunnerPc.receiving] using awaiting_reach h hsize hn hborn
      rw [hstands]
      cases d <;> simp [isOpen, hstarted, hc, hi, ho, he, Lifetime.ofOpen]

/-- A submission that ends well: its `Ready` arrives. -/
theorem descriptors_closed_iff_completed :
    (∀ d, Lifetime.Settled (descriptorTrace ⟨[], 1000, 0⟩ (completes 0) d)) ↔
      Machine.Along step (fun s a => unready s a = false) (.init ⟨[], 1000, 0⟩) (completes 0) := by
  obtain ⟨w, h, hpc⟩ : ∃ w, Runs ⟨[], 1000, 0⟩ (completes 0) w ∧ w.runner.pc = .returned :=
    exists_run (by decide +kernel)
  exact descriptors_closed_iff (by decide) h hpc

/-- The cgroup cannot be created: `SetupFailed` comes first, and `run` returns
with three descriptors open. -/
def mkdirFails : List Act :=
  List.replicate 6 (Act.runner .ok) ++ [Act.supervisor (.fail EEXIST)] ++
    List.replicate 2 (Act.supervisor .ok) ++ List.replicate 3 (Act.runner .ok)

theorem descriptors_left_open :
    ∃ w, Runs ⟨[], 1000, 0⟩ mkdirFails w ∧ w.runner.pc = .returned ∧
      ∀ d ∈ [stdin0, stdout1, stderr1],
        descriptorTrace ⟨[], 1000, 0⟩ mkdirFails d = [.acquired] ∧
          ¬ Lifetime.Settled (descriptorTrace ⟨[], 1000, 0⟩ mkdirFails d) := by
  obtain ⟨w, h, hpc⟩ : ∃ w, Runs ⟨[], 1000, 0⟩ mkdirFails w ∧ w.runner.pc = .returned :=
    exists_run (by decide +kernel)
  have htrace : ∀ d ∈ [stdin0, stdout1, stderr1],
      descriptorTrace ⟨[], 1000, 0⟩ mkdirFails d = [.acquired] := by decide +kernel
  refine ⟨w, h, hpc, fun d hd => ⟨htrace d hd, ?_⟩⟩
  have hheld : Lifetime.after [.acquired] = some .held := rfl
  rw [htrace d hd, Lifetime.settled_iff hheld]
  exact fun hn => hn rfl

end OnlineJudge
