import OnlineJudge.System
import Mathlib.Tactic.Ring

/-!
# The deadline

A wall limit in milliseconds is added to a clock reading in nanoseconds, and what
is left of it is cut to milliseconds and narrowed to the `int` that `poll` takes.
A negative one is an infinite wait.
-/

namespace OnlineJudge

/-! ## Narrowing -/

theorem wrap_bounds (n : Nat) (v : Int) : -2 ^ n ≤ wrap (n + 1) v ∧ wrap (n + 1) v < 2 ^ n := by
  have hpow : (2 : Nat) ^ (n + 1) = 2 * 2 ^ n := by ring
  have hpos : 0 < (2 : Nat) ^ (n + 1) := Nat.pow_pos (by decide)
  have hlow : -(((2 ^ (n + 1) : Nat) : Int) / 2) ≤ wrap (n + 1) v := Int.le_bmod hpos
  have hhigh : wrap (n + 1) v < (((2 ^ (n + 1) : Nat) : Int) + 1) / 2 := Int.bmod_lt hpos
  rw [hpow] at hlow hhigh
  push_cast at hlow hhigh
  omega

theorem wrap_eq_self_iff {n : Nat} {v : Int} : wrap (n + 1) v = v ↔ -2 ^ n ≤ v ∧ v < 2 ^ n := by
  have hpow : ((2 ^ (n + 1) : Nat) : Int) = 2 * 2 ^ n := by
    push_cast
    ring
  constructor
  · intro h
    rw [← h]
    exact wrap_bounds n v
  · rintro ⟨hlow, hhigh⟩
    exact Int.bmod_eq_of_le_mul_two (by rw [hpow]; omega) (by rw [hpow]; omega)

/-! ## What a run keeps -/

namespace Runner

@[grind =] def schedule (r : Runner) : Int × Int × Int := (r.wall_limit, r.start_time, r.deadline)

variable {w w' : World} {x : Answer}

/-- Only the fork sets the start time and the deadline. -/
theorem Move.schedule (hm : Move w x w') :
    w'.runner.schedule = w.runner.schedule ∨
      w'.runner.pc = .receiveHeader ∧ w'.runner.schedule =
        (w.runner.wall_limit, w.clock, deadlineOf w.clock w.runner.wall_limit) := by
  cases hm with
  | forked => exact .inr ⟨rfl, rfl⟩
  | got site | lost site => cases site <;> exact .inl (by grind -linarith)
  | sent site | sendFailed site => cases site <;> exact .inl (by grind -linarith)
  | waited site | waitFailed site =>
    cases site with
    | @cleanup site => rcases site with _ | _ | _ | _ <;> exact .inl (by grind -linarith)
    | _ => exact .inl (by grind -linarith)
  | @killFailed _ site | @foundEmpty site | @foundPopulated _ site | @removeSkipped _ site
  | @removed site | @removeFailed _ site =>
    rcases site with _ | _ | _ | _ <;> exact .inl (by grind -linarith)
  | looped | polled | wrote | brokenStdin | ioFailed => exact .inl (by grind -linarith)
  | _ => exact .inl rfl

theorem Move.clock (hm : Move w x w') : w'.clock = w.clock := by cases hm <;> rfl

/-- After `poll` has returned, the iteration goes on with another call. -/
theorem afterPoll_ne (r : Runner) (timeout : Int) : r.afterPoll.pc ≠ .poll timeout := by
  grind -linarith

/-- The ways to the call of `poll`. -/
theorem Move.to_poll {timeout : Int} (hm : Move w x w') (h : w'.runner.pc = .poll timeout) :
    w' = w ∨ w.runner.pc = .loop ∧ w'.runner = w.runner.nextIteration w.clock ∨
      timeout = 10 ∧ w'.runner.termination_requested = true := by
  cases hm with
  | again => exact .inl rfl
  | looped hpc => exact .inr (.inl ⟨hpc, rfl⟩)
  | sent site =>
    cases site with
    | deadline =>
      cases h
      exact .inr (.inr ⟨rfl, rfl⟩)
    | cleanup => cases h
  | got site | lost site => exact absurd h (by cases site <;> grind -linarith)
  | sendFailed site => exact absurd h (by cases site <;> grind -linarith)
  | waited site | waitFailed site =>
    refine absurd h ?_
    cases site with
    | @cleanup site => rcases site with _ | _ | _ | _ <;> grind -linarith
    | _ => grind -linarith
  | @killFailed _ site | @foundEmpty site | @foundPopulated _ site | @removeSkipped _ site
  | @removed site | @removeFailed _ site =>
    exact absurd h (by rcases site with _ | _ | _ | _ <;> grind -linarith)
  | polled => exact absurd h (afterPoll_ne _ timeout)
  | _ => exact absurd h (by grind -linarith)

end Runner

/-- The setup is over, and `run` has not returned. -/
def RunnerPc.started : RunnerPc → Bool
  | .setup _ | .returned => false
  | _ => true

theorem Runner.Move.of_not_started {w w' : World} {x : Answer} (hm : Runner.Move w x w')
    (h : w.runner.pc.started = false) :
    w'.runner.schedule =
        (w.runner.wall_limit, w.clock, deadlineOf w.clock w.runner.wall_limit) ∨
      w'.runner.pc.started = false := by
  cases hm with
  | again => exact .inr h
  | setupDone | setupFailed => exact .inr rfl
  | forked => exact .inl rfl
  | got site | lost site => cases site <;> simp_all [RunnerPc.started]
  | sent site | sendFailed site => cases site <;> simp_all [RunnerPc.started]
  | waited site | waitFailed site => cases site <;> simp_all [RunnerPc.started]
  | ioFailed hpc =>
    obtain ⟨_, hpc⟩ | hpc | hpc | hpc := hpc <;> simp [hpc, RunnerPc.started] at h
  | killDenied hpc | killFailed hpc | removeSkipped hpc =>
    obtain hpc | hpc := hpc <;> simp [hpc, RunnerPc.started] at h
  | _ => simp_all [RunnerPc.started]

/-- The deadline is what was computed at the fork, and the clock has not gone
back since. -/
structure Dated (q : Request) (w : World) : Prop where
  wall_limit : w.runner.wall_limit = q.wall_limit
  deadline : w.runner.pc.started = false ∨
    w.runner.deadline = deadlineOf w.runner.start_time q.wall_limit ∧
      w.runner.start_time ≤ w.clock

theorem clock_step {w w' : World} {a : Act} (ht : step w a = some w') : w.clock ≤ w'.clock := by
  cases moves_step ht with
  | tick => simp
  | runner hm => exact Int.le_of_eq hm.clock.symm
  | supervisor hm | childA hm | childB hm => cases hm <;> exact Int.le_refl _
  | _ => exact Int.le_refl _

theorem Dated.step {q : Request} {w w' : World} {a : Act} (h : Dated q w)
    (ht : step w a = some w') : Dated q w' := by
  have hclock := clock_step ht
  obtain ⟨hwall, hdeadline⟩ := h
  rcases (moves_step ht).runner_cases with ⟨x, -, hm⟩ | hrunner
  · have hfork : w'.runner.schedule =
        (w.runner.wall_limit, w.clock, deadlineOf w.clock w.runner.wall_limit) → Dated q w' := by
      intro heq
      simp only [Runner.schedule, Prod.mk.injEq] at heq
      obtain ⟨hwall', hstart, hdeadline'⟩ := heq
      refine ⟨hwall'.trans hwall, .inr ⟨?_, hstart ▸ hclock⟩⟩
      rw [hdeadline', hstart, hwall]
    rcases hm.schedule with heq | ⟨-, heq⟩
    · rcases hdeadline with hpc | ⟨hd, hle⟩
      · rcases hm.of_not_started hpc with hset | hpc'
        · exact hfork hset
        · exact ⟨(congrArg Prod.fst heq).trans hwall, .inl hpc'⟩
      · simp only [Runner.schedule, Prod.mk.injEq] at heq
        obtain ⟨hwall', hstart, hdeadline'⟩ := heq
        refine ⟨hwall'.trans hwall, .inr ⟨?_, hstart ▸ Int.le_trans hle hclock⟩⟩
        rw [hdeadline', hstart, hd]
    · exact hfork heq
  · rw [← hrunner] at hwall hdeadline
    exact ⟨hwall, hdeadline.imp_right fun ⟨hd, hle⟩ => ⟨hd, Int.le_trans hle hclock⟩⟩

theorem Runs.dated {q : Request} {acts : List Act} {w : World} (h : Runs q acts w) : Dated q w :=
  Machine.run_keeps (I := Dated q) (fun _ _ _ hs ht => hs.step ht) ⟨rfl, .inl rfl⟩ h

/-! ## The timeouts -/

/-- No call of `poll` before the submission has finished waits for ever; an
iteration waits no longer than is left when it begins, unless a termination is
requested, and it sends `Terminate` if nothing is left. -/
structure InTime (w w' : World) : Prop where
  nonneg : ∀ timeout, w'.runner.pc = .poll timeout → w'.runner.submission_finished = false →
    0 ≤ timeout
  bounded : ∀ timeout, w.runner.pc = .loop → w'.runner.pc = .poll timeout →
    w'.runner.submission_finished = false → w'.runner.termination_requested = false →
    timeout * 1000000 ≤ w.runner.start_time + w.runner.wall_limit * 1000000 - w.clock
  wakes : w.runner.pc = .loop → w.runner.submission_finished = false →
    w.runner.termination_requested = false →
    w.runner.start_time + w.runner.wall_limit * 1000000 ≤ w.clock →
    w'.runner.pc = .sendTerminate

/-- What a deadline is computed from, and where this is exact: the wall limit in
nanoseconds and the sum are numbers of 64 bits. -/
def DeadlineExact (start_time wall_limit : Int) : Prop :=
  wrap 64 (wall_limit * 1000000) = wall_limit * 1000000 ∧
    deadlineOf start_time wall_limit = start_time + wall_limit * 1000000

/-- All runs with this wall limit that are forked at this time. -/
def DeadlineWakes (start_time wall_limit : Int) : Prop :=
  DeadlineExact start_time wall_limit ∧
    ∀ (q : Request) (acts : List Act) (w w' : World) (x : Answer), q.wall_limit = wall_limit →
      Runs q acts w → w.runner.start_time = start_time → step w (.runner x) = some w' → InTime w w'

/-- What is left of a limit that fits an `int` of milliseconds does too. -/
theorem timeout_of_fits {left wall_limit : Int} (hpos : 0 < left)
    (hle : left ≤ wall_limit * 1000000) (hfits : wall_limit < 2 ^ 31) :
    0 ≤ wrap 32 (left.tdiv 1000000) ∧ wrap 32 (left.tdiv 1000000) * 1000000 ≤ left := by
  have hdiv : left.tdiv 1000000 = left / 1000000 := Int.tdiv_eq_ediv_of_nonneg hpos.le
  have hwrap : wrap 32 (left / 1000000) = left / 1000000 :=
    wrap_eq_self_iff.2 ⟨by omega, by omega⟩
  rw [hdiv, hwrap]
  omega

theorem Runner.nextIteration_keeps (r : Runner) (now : Int) :
    (r.nextIteration now).start_time = r.start_time ∧
      (r.nextIteration now).submission_finished = r.submission_finished ∧
      (r.nextIteration now).termination_requested = r.termination_requested := by
  grind -linarith

/-- An iteration with the exact deadline. -/
theorem Runner.nextIteration_poll {r : Runner} {now timeout : Int}
    (hdeadline : r.deadline = r.start_time + r.wall_limit * 1000000) (hnow : r.start_time ≤ now)
    (hfits : r.wall_limit < 2 ^ 31) (hf : r.submission_finished = false)
    (hpc : (r.nextIteration now).pc = .poll timeout) :
    0 ≤ timeout ∧ (r.termination_requested = false →
      timeout * 1000000 ≤ r.start_time + r.wall_limit * 1000000 - now) := by
  unfold nextIteration at hpc
  simp only [hf, Bool.false_and, Bool.false_eq_true, if_false, Bool.not_false, Bool.true_and]
    at hpc
  split at hpc
  · cases hpc
  · rename_i hwait
    have htimeout : r.timeout now = timeout := RunnerPc.poll.inj hpc
    unfold Runner.timeout at htimeout
    simp only [hf, Bool.false_eq_true, if_false] at htimeout
    cases hreq : r.termination_requested with
    | true =>
      rw [hreq, if_pos rfl] at htimeout
      exact ⟨by omega, nofun⟩
    | false =>
      have hlt : now < r.deadline := by simpa [hreq] using hwait
      rw [hreq, if_neg (by decide), if_neg (by omega)] at htimeout
      obtain ⟨hnonneg, hle⟩ := timeout_of_fits (show 0 < r.deadline - now by omega)
        (show r.deadline - now ≤ r.wall_limit * 1000000 by omega) hfits
      rw [htimeout] at hnonneg hle
      exact ⟨hnonneg, fun _ => by omega⟩

theorem Runner.nextIteration_wakes {r : Runner} {now : Int}
    (hdeadline : r.deadline = r.start_time + r.wall_limit * 1000000)
    (hnow : r.start_time + r.wall_limit * 1000000 ≤ now) (hf : r.submission_finished = false)
    (hreq : r.termination_requested = false) : (r.nextIteration now).pc = .sendTerminate := by
  have hdue : r.deadline ≤ now := by omega
  simp [nextIteration, hf, hreq, hdue, go]

/-- The argument of `poll` is never negative, in a run that was forked at
`start_time`. -/
def Waits (start_time : Int) (w : World) : Prop :=
  w.runner.start_time = start_time → ∀ timeout, w.runner.pc = .poll timeout →
    w.runner.submission_finished = false → 0 ≤ timeout

section
variable {q : Request} {start_time : Int} {w w' : World}

theorem Dated.exact (h : Dated q w) (hpc : w.runner.pc.started = true)
    (hexact : DeadlineExact w.runner.start_time q.wall_limit) :
    w.runner.deadline = w.runner.start_time + w.runner.wall_limit * 1000000 ∧
      w.runner.start_time ≤ w.clock := by
  rcases h.deadline with hp | ⟨hd, hle⟩
  · rw [hpc] at hp
    cases hp
  · exact ⟨by rw [hd, hexact.2, h.wall_limit], hle⟩

theorem Waits.step {a : Act} (hw : Waits start_time w) (h : Dated q w)
    (hexact : DeadlineExact start_time q.wall_limit) (hfits : q.wall_limit < 2 ^ 31)
    (ht : OnlineJudge.step w a = some w') : Waits start_time w' := by
  rcases (moves_step ht).runner_cases with ⟨x, -, hm⟩ | hrunner
  · intro hstart timeout hpc hf
    rcases hm.to_poll hpc with rfl | ⟨hloop, hnext⟩ | ⟨rfl, -⟩
    · exact hw hstart timeout hpc hf
    · obtain ⟨hstart', hf', -⟩ := w.runner.nextIteration_keeps w.clock
      rw [hnext] at hstart hpc hf
      have hnow : w.runner.start_time = start_time := hstart'.symm.trans hstart
      obtain ⟨hdeadline, hle⟩ := h.exact (by rw [hloop]; rfl) (hnow ▸ hexact)
      exact (Runner.nextIteration_poll hdeadline hle (h.wall_limit ▸ hfits) (hf' ▸ hf) hpc).1
    · decide
  · rwa [Waits, hrunner]

theorem Runs.waits {acts : List Act} (h : Runs q acts w)
    (hexact : DeadlineExact start_time q.wall_limit) (hfits : q.wall_limit < 2 ^ 31) :
    Waits start_time w :=
  (Machine.run_keeps (I := fun w => Dated q w ∧ Waits start_time w)
    (fun _ _ _ hs ht => ⟨hs.1.step ht, hs.2.step hs.1 hexact hfits ht⟩)
    ⟨⟨rfl, .inl rfl⟩, by simp [Waits, World.init]⟩ h).2

theorem runner_of_loop {x : Answer} (hloop : w.runner.pc = .loop)
    (ht : OnlineJudge.step w (.runner x) = some w') :
    w'.runner = w.runner.nextIteration w.clock := by
  simp only [OnlineJudge.step, Runner.step, hloop] at ht
  cases x <;> cases ht
  rfl

/-- Steps of a run whose deadline is exact and whose wall limit fits. -/
theorem Runs.inTime {acts : List Act} {x : Answer} (h : Runs q acts w)
    (hstart : w.runner.start_time = start_time)
    (hexact : DeadlineExact start_time q.wall_limit) (hfits : q.wall_limit < 2 ^ 31)
    (ht : OnlineJudge.step w (.runner x) = some w') : InTime w w' := by
  have hdated := h.dated
  refine ⟨fun timeout hpc => ?_, fun timeout hloop hpc hf hreq => ?_, fun hloop hf hreq hdue => ?_⟩
  · have hwaits := (h.waits hexact hfits).step hdated hexact hfits ht
    refine hwaits ?_ timeout hpc
    cases moves_step ht with
    | runner hm =>
      rcases hm.schedule with heq | ⟨hheader, -⟩
      · exact (congrArg (·.2.1) heq).trans hstart
      · rw [hheader] at hpc
        cases hpc
  · obtain ⟨hdeadline, hle⟩ := hdated.exact (by rw [hloop]; rfl) (hstart ▸ hexact)
    have hnext := runner_of_loop hloop ht
    obtain ⟨-, hf', hreq'⟩ := w.runner.nextIteration_keeps w.clock
    rw [hnext] at hpc hf hreq
    exact (Runner.nextIteration_poll hdeadline hle (hdated.wall_limit ▸ hfits) (hf' ▸ hf) hpc).2
      (hreq' ▸ hreq)
  · obtain ⟨hdeadline, -⟩ := hdated.exact (by rw [hloop]; rfl) (hstart ▸ hexact)
    rw [runner_of_loop hloop ht]
    exact Runner.nextIteration_wakes hdeadline hdue hf hreq

end

/-- At the head of the loop for the first time, `ns` nanoseconds after the fork. -/
theorem exists_boot (start_time wall_limit : Int) (ns : Nat) :
    ∃ w, Runs ⟨[], wall_limit, start_time⟩ (bootSupervisor ++ [Act.tick ns]) w ∧
      w.runner.pc = .loop ∧ w.runner.start_time = start_time ∧ w.clock = start_time + ns ∧
      w.runner.submission_finished = false ∧ w.runner.termination_requested = false := by
  have hrun : (Machine.run step (.init ⟨[], wall_limit, start_time⟩)
      (bootSupervisor ++ [Act.tick ns])).map (fun w => (w.runner.pc, w.runner.start_time, w.clock,
        w.runner.submission_finished, w.runner.termination_requested)) =
      some (.loop, start_time, start_time + ns, false, false) := by
    with_unfolding_all rfl
  obtain ⟨w, hw, heq⟩ := Option.map_eq_some_iff.1 hrun
  simp only [Prod.mk.injEq] at heq
  exact ⟨w, hw, heq⟩

/-- The limit is kept and the loop always woken by it iff it is less than 2^31
milliseconds and leads to a deadline that the clock can read. -/
theorem deadline_wakes_iff (start_time wall_limit : Int) :
    DeadlineWakes start_time wall_limit ↔
      -2 ^ 63 ≤ wall_limit * 1000000 ∧ -2 ^ 63 ≤ start_time + wall_limit * 1000000 ∧
        start_time + wall_limit * 1000000 < 2 ^ 63 ∧ wall_limit < 2 ^ 31 := by
  have hexact_iff : DeadlineExact start_time wall_limit ↔
      (-2 ^ 63 ≤ wall_limit * 1000000 ∧ wall_limit * 1000000 < 2 ^ 63) ∧
        -2 ^ 63 ≤ start_time + wall_limit * 1000000 ∧
        start_time + wall_limit * 1000000 < 2 ^ 63 :=
    and_congr wrap_eq_self_iff wrap_eq_self_iff
  constructor
  · rintro ⟨hexact, hsteps⟩
    obtain ⟨⟨hlow, -⟩, hlow', hhigh'⟩ := hexact_iff.1 hexact
    refine ⟨hlow, hlow', hhigh', ?_⟩
    by_contra hlong
    -- at the moment when just 2^31 milliseconds are left
    obtain ⟨ns, hns⟩ := Int.eq_ofNat_of_zero_le
      (show 0 ≤ (wall_limit - 2 ^ 31) * 1000000 by omega)
    obtain ⟨w, hrun, hpc, hstart, hclock, hf, hreq⟩ := exists_boot start_time wall_limit ns
    have hdated := hrun.dated
    obtain ⟨hdeadline, -⟩ := hdated.exact (by rw [hpc]; rfl) (hstart ▸ hexact)
    have hleft : w.runner.deadline - w.clock = 2 ^ 31 * 1000000 := by
      rw [hdeadline, hdated.wall_limit, hstart, hclock]
      dsimp only
      omega
    have hnext : w.runner.nextIteration w.clock = w.runner.go (.poll (-2 ^ 31)) := by
      have hlt : ¬ w.runner.deadline ≤ w.clock := by omega
      simp only [Runner.nextIteration, Runner.timeout, hf, hreq, hlt, hleft]
      rfl
    have ht : step w (.runner .ok) =
        some { w with runner := w.runner.nextIteration w.clock } := by
      simp [step, Runner.step, hpc, Runner.loopHead]
    have hnonneg := (hsteps _ _ w _ _ rfl hrun hstart ht).nonneg (-2 ^ 31)
      (by rw [hnext]; rfl) (by rw [hnext]; exact hf)
    omega
  · rintro ⟨hlow, hlow', hhigh', hfits⟩
    have hexact : DeadlineExact start_time wall_limit :=
      hexact_iff.2 ⟨⟨hlow, by omega⟩, hlow', hhigh'⟩
    refine ⟨hexact, ?_⟩
    rintro q acts w w' x rfl hrun hstart ht
    exact hrun.inTime hstart hexact hfits ht

/-- A wall limit of 2^31 milliseconds, a little under 25 days: the first `poll`
waits for ever. -/
theorem deadline_sleeps :
    ¬ ∀ start_time wall_limit : Int, -2 ^ 63 ≤ wall_limit → wall_limit < 2 ^ 63 →
      DeadlineWakes start_time wall_limit := by
  intro h
  obtain ⟨w, w', hrun, hstart, ht, hpc, hf⟩ : ∃ w w', Runs ⟨[], 2147483648, 0⟩ bootSupervisor w ∧
      w.runner.start_time = 0 ∧ step w (.runner .ok) = some w' ∧
      w'.runner.pc = .poll (-2147483648) ∧ w'.runner.submission_finished = false :=
    exists_last_step (by decide +kernel)
  have hnonneg := ((h 0 2147483648 (by decide) (by decide)).2 _ _ w w' .ok rfl hrun hstart
    ht).nonneg (-2147483648) hpc hf
  exact absurd hnonneg (by decide)

end OnlineJudge
