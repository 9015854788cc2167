import OnlineJudge.Lifecycle
import OnlineJudge.Outcomes

/-!
# An uneventful run

Without a fault and without a kill an execution goes through its lifecycle the
way it is documented: at any time it has reached a beginning of it, and all of it
when `run` returns.
-/

namespace OnlineJudge

variable {q : Request} {acts : List Act} {w w' : World} {x : Answer} {a : Act}
  {log : List Stage} {ms taken unread : List Message} {begun : Option Message}

/-- Where nothing is skipped, each stage rests on the one before it as well. -/
def Stage.follows : Stage → List Stage
  | rootCreated => [cgroupCreated]
  | childReleased => [childInCgroup]
  | cleanup => [finished]
  | cleaned => [cleanup]
  | m => m.requires

/-- No call fails, `Terminate` finds somebody to take it, and nobody is killed. -/
def uneventful (w : World) (a : Act) : Bool :=
  blameless w a && !unheard w a && !(a matches .die _)

/-- Past the write of the wait status. -/
def ChildA.recorded : ChildA → Bool
  | closeStatus _ | leave _ | exited _ => true
  | _ => false

attribute [grind =] ChildA.recorded

/-! ## The states in between -/

/-- What leads from one stage to the next. -/
structure Smooth (w : World) : Prop where
  attached : w.sup.pc = .release → w.cgroup.hasA = true
  free : w.sup.pc.phase = .started → w.released = true
  reading : w.sup.pc = .readStatus → w.sup.startup_status_open = true
  removing : ∀ retries, w.sup.pc = .removeCgroup .finished retries → w.reaped.childA = true
  whole : w.childA.recorded = true → w.statusReader = true → w.statusPipe.sent ≠ [tag]

/-- The lifecycle is under way. -/
structure Telling (log : List Stage) (ms : List Message) (w : World) : Prop where
  ordered : Milestones.Ordered Stage.follows (fun _ => []) log
  ended : (∃ s, w.childB = .exited s) → Stage.finished ∈ log
  left : (∃ s, w.childA = .exited s) → Stage.finished ∈ log
  unsent : ∀ writes, w.sup.pc ≠ .send .terminated writes
  untold : ∀ m ∈ ms, m.type ≠ .terminated

theorem Stage.prefix_documented (h : Milestones.Ordered Stage.follows (fun _ => []) log) :
    log <+: Stage.documented := by
  have hall : log.filter (· ∈ Stage.documented) = log :=
    List.filter_eq_self.2 fun m _ => decide_eq_true m.mem_documented
  have hprefix : log.filter (· ∈ Stage.documented) <+: Stage.documented :=
    h.prefix_of_chain (by decide) (by decide)
  rwa [hall] at hprefix

theorem Stage.eq_documented (h : Milestones.Ordered Stage.follows (fun _ => []) log)
    (hc : Stage.cleaned ∈ log) : log = Stage.documented := by
  obtain ⟨rest, hrest⟩ := prefix_documented h
  rcases List.eq_nil_or_concat rest with rfl | ⟨mid, last, rfl⟩
  · rw [← hrest, List.append_nil]
  · rw [List.concat_eq_append, ← List.append_assoc] at hrest
    have hnodup : (log ++ mid ++ [last]).Nodup := by
      rw [hrest]
      decide
    have hlast : last = .cleaned := by
      have h := congrArg List.getLast? hrest
      rw [List.getLast?_concat] at h
      exact Option.some.inj h
    exact absurd rfl ((List.nodup_append.1 hnodup).2.2 _ (List.mem_append_left _ hc) _
      (by simp [hlast]))

theorem Runner.Move.cgroup_of_watching (hm : Runner.Move w x w')
    (h : w.runner.pc.watching = true) : w'.cgroup = w.cgroup := by
  cases hm with
  | removed hpc => simp [hpc, RunnerPc.watching] at h
  | _ => rfl

namespace Smooth

theorem statusReader_mono (hm : Supervisor.Move w x w') (hp : Supervisor.Proper w x w')
    (h : w'.statusReader = true) : w.statusReader = true := by
  rcases hm.eq_or_alive with rfl | halive
  · exact h
  · rw [World.statusReader, Bool.and_eq_true] at h ⊢
    refine ⟨halive, ?_⟩
    have hopen := h.2
    clear hm
    cases hp with
    | @sent caller => cases caller <;> grind -linarith
    | _ => grind -linarith

theorem reading_of_move (h : w.sup.pc = .readStatus → w.sup.startup_status_open = true)
    (hm : Supervisor.Move w x w') :
    w'.sup.pc = .readStatus → w'.sup.startup_status_open = true := by
  cases hm with
  | gotControl =>
    rcases w.sup.handleControl_cases
      (.ofBytes (w.toSup.pending.take headerSize)) with he | he | he | he <;> grind -linarith
  | @sent caller | @sendFailed _ caller | @openedKill caller | @killWritten caller
  | @killDenied _ caller
  | @killFailed _ caller | @removed caller | @removeBusy caller | @removeDenied caller
  | @removeFailed caller =>
    cases caller <;> grind -linarith
  | @gotStatus r => cases r <;> grind -linarith
  | waitedA site | waitAFailed site => cases site <;> grind -linarith
  | _ => grind -linarith

theorem supervisor (h : Smooth w) (hm : Supervisor.Move w x w') (hp : Supervisor.Proper w x w') :
    Smooth w' := by
  obtain ⟨hatt, hfree, hread, hrem, hwhole⟩ := h
  refine ⟨?_, ?_, reading_of_move hread hm, ?_, ?_⟩
  · clear hfree hread hrem hwhole hm
    cases hp with
    | @sent caller => cases caller <;> grind -linarith
    | _ => grind -linarith
  · clear hatt hread hrem hwhole hm
    cases hp with
    | @sent caller => cases caller <;> grind -linarith
    | _ => grind -linarith
  · clear hatt hfree hread hwhole hm
    cases hp with
    | @sent caller => cases caller <;> grind -linarith
    | _ => grind -linarith
  · intro hA hr
    rw [hm.statusPipe_sent]
    refine hwhole ?_ (statusReader_mono hm hp hr)
    clear hatt hfree hread hrem hwhole hm hr
    cases hp with
    | forked => cases hA
    | _ => exact hA

theorem childA (h : Smooth w) (hr : Recorded w) (hx : x.fails = false)
    (hm : ChildA.Move w x w') : Smooth w' := by
  obtain ⟨hatt, hfree, hread, hrem, hwhole⟩ := h
  cases hm with
  | again => cases hx
  | abandoned hpc =>
    have hempty := hr.unwritten (.inl (by simp [hpc, ChildA.beforeFork]))
    exact ⟨hatt, hfree, hread, hrem, fun _ _ => by simp [hempty]⟩
  | @setupDone _ rest =>
    have := ChildA.next_cases rest
    exact ⟨hatt, hfree, hread, hrem, by grind -linarith⟩
  | toldControl hpc | toldStatus hpc | reportLost hpc => exact absurd hpc (hr.silentA _ _)
  | @forwarded b_status chunk rest hpc =>
    refine ⟨hatt, hfree, hread, hrem, fun hA _ htag => ?_⟩
    obtain ⟨-, hsent⟩ := hr.forward _ _ hpc
    by_cases hrest : rest = []
    · have hlen : (w.statusPipe.put chunk).sent.length = 5 := by
        rw [← length_waitRecord b_status, ← hsent, hrest]
        simp
      simp [htag] at hlen
    · simp [hrest, ChildA.recorded] at hA
  | @forwardLost _ b_status _ _ hpc hlost =>
    rcases hlost with ⟨e, rfl⟩ | hlost
    · cases hx
    · refine ⟨hatt, hfree, hread, hrem, fun _ hreader => ?_⟩
      rw [show w.statusReader = true from hreader] at hlost
      cases hlost
  | closedStatus hpc | left hpc =>
    exact ⟨hatt, hfree, hread, hrem, fun _ => hwhole (by rw [hpc]; rfl)⟩
  | _ => exact ⟨hatt, hfree, hread, hrem, by rintro ⟨⟩⟩

/-- The others leave the supervisor and Child A alone. -/
theorem quiet (h : Smooth w) (hs : w'.sup = w.sup) (hA : w'.childA = w.childA)
    (hh : w'.cgroup.hasA = w.cgroup.hasA) (hr : w'.released = w.released)
    (hd : w'.reaped.childA = w.reaped.childA) (hsent : w'.statusPipe.sent = w.statusPipe.sent) :
    Smooth w' := by
  obtain ⟨hatt, hfree, hread, hrem, hwhole⟩ := h
  refine ⟨by rwa [hs, hh], by rwa [hs, hr], by rwa [hs], by rwa [hs, hd], ?_⟩
  rwa [World.statusReader, hs, hA, hsent]

theorem keep (h : Smooth w) (hl : Lineage w) (hi : Listening w) (hr : Recorded w)
    (hlive : Live ms taken unread begun w) (hu : uneventful w a = true)
    (hcut : cutShort w a = false) (ht : step w a = some w') : Smooth w' := by
  simp only [uneventful, Bool.and_eq_true] at hu
  obtain ⟨⟨hb, -⟩, hdie⟩ := hu
  cases moves_step ht with
  | @runner x _ hm =>
    rcases hm.sup with hs | ⟨hpc, -, hs⟩
    · exact h.quiet hs hm.childA hm.hasA hm.released (by cases hm <;> rfl) (by rw [hm.statusPipe])
    · have hA := hl.unborn (by rw [hl.unforked hpc]; rfl)
      rw [← hm.childA] at hA
      exact ⟨by simp [hs, Supervisor.go], by simp [hs, Supervisor.go, SupervisorPc.phase],
        by simp [hs, Supervisor.go], by simp [hs, Supervisor.go], by simp [hA, ChildA.recorded]⟩
  | @supervisor x _ hm =>
    exact h.supervisor hm (hlive.proper hl hi (attended_of_blameless hb) hcut ht)
  | @childA x _ hm => exact h.childA hr (by cases x <;> first | rfl | cases hb) hm
  | @childB x _ hm =>
    refine h.quiet hm.sup hm.childA (by rw [hm.cgroup]) hm.released (by rw [hm.reaped]) ?_
    cases hm with
    | told hpc => exact absurd hpc (hr.silentB _)
    | _ => rfl
  | diedSupervisor | diedA | diedB => cases hdie
  | _ => exact h.quiet rfl rfl rfl rfl rfl rfl

theorem init (q : Request) : Smooth (.init q) := by
  constructor <;> simp [World.init, SupervisorPc.phase, ChildA.recorded]

/-- No wait status is cut short. -/
theorem not_cutShort (h : Smooth w) (hi : Listening w) (hr : Recorded w) :
    cutShort w a = false := by
  cases hc : cutShort w a with
  | false => rfl
  | true =>
    obtain ⟨x, rfl⟩ : ∃ x, a = .supervisor x := by
      cases a <;> first | exact ⟨_, rfl⟩ | cases hc
    simp only [cutShort, truncated, Bool.and_eq_true, decide_eq_true_eq] at hc
    obtain ⟨⟨⟨-, hpc⟩, hpending⟩, hwriter⟩ := hc
    have hsent : w.statusPipe.sent = [tag] := by
      rcases hi.waiting (by simp [hpc, SupervisorPc.listening]) with ⟨-, hp⟩ | ⟨-, hp⟩
      · rw [← hp, hpending]
      · rw [hpending] at hp
        cases hp
    have hA : w.childA.recorded = true := by
      have hunwritten := hr.unwritten
      rw [hsent] at hunwritten
      cases hA : w.childA with
      | closeStatus | leave | exited => rfl
      | forward => simp [World.statusWriter, hA, ChildA.holdsStatus] at hwriter
      | _ => simp [hA, ChildA.beforeFork] at hunwritten
    refine absurd hsent (h.whole hA ?_)
    simp [World.statusReader, Supervisor.alive, hpc, h.reading hpc]

end Smooth

/-! ## The stages one by one -/

theorem SupervisorPc.beforeWait_of_over {pc : SupervisorPc} (h : pc.phase = .over)
    (hs : pc.sound = true) : pc.beforeWait = false := by
  cases pc with
  | send caller | removeCgroup caller | openKill caller | writeKill caller =>
    cases caller <;> simp_all [phase, sound]
  | exited => rfl
  | _ => simp_all [phase, sound]

/-- Nobody lets Child A wait in vain. -/
theorem Live.not_waiting (h : Live ms taken unread begun w) (hl : Lineage w)
    (hfree : w.sup.pc.phase = .started → w.released = true) (hheld : w.released = false)
    (hsync : w.sup.holdsSync = false) :
    w.childA ≠ .awaitRelease := by
  intro hpc
  obtain ⟨hsound, -, -, -, -, hwaited, -, -, -, -⟩ := h.manned
  cases hphase : w.sup.pc.phase with
  | before => simp [hl.unborn hphase] at hpc
  | attaching => simp [holdsSync_of_attaching hphase] at hsync
  | started => simp [hfree hphase] at hheld
  | «over» =>
    obtain ⟨s, hA⟩ := hwaited (SupervisorPc.beforeWait_of_over hphase hsound)
    simp [hA] at hpc

namespace Telling

/-- Nobody removes the cgroup but the supervisor, once it has reaped Child A. -/
theorem removing_of_cleaned (hl : Lineage w) (hi : Listening w) (hn : Unfailing ms w)
    (hs : Smooth w) (hlive : Live ms taken unread begun w) (hu : uneventful w a = true)
    (ht : step w a = some w') (hp : w.cgroup.present = true) (hp' : w'.cgroup.present = false) :
    ∃ retries, w.sup.pc = .removeCgroup .finished retries := by
  have hsame (h : w'.cgroup = w.cgroup) : False := by simp [h, hp] at hp'
  have hb : blameless w a = true := by
    simp only [uneventful, Bool.and_eq_true] at hu
    exact hu.1.1
  cases moves_step ht with
  | @runner x _ hm =>
    refine absurd (hm.cgroup_of_watching ?_) hsame
    have hsession : Session ms w := .inl ⟨_, _, _, hlive⟩
    refine hsession.watching.resolve_right fun hpc => ?_
    simp [step, Runner.step, hpc] at ht
  | @supervisor x _ hm =>
    have hcut := hs.not_cutShort hi hn.recorded (a := .supervisor x)
    have hproper := hlive.proper hl hi (attended_of_blameless hb) hcut ht
    have hfailing := hn.sup
    cases hproper with
    | @removedFinished _ retries hpc => exact ⟨retries, hpc⟩
    | removedFailed hpc => simp [hpc, SupervisorPc.failing] at hfailing
    | madeCgroup => cases hp'
    | attached => exact absurd hp' (by simp [hp])
    | _ => exact (hsame rfl).elim
  | childA hm =>
    cases hm with
    | forked => exact absurd hp' (by simp [hp])
    | _ => exact (hsame rfl).elim
  | childB hm => exact (hsame hm.cgroup).elim
  | _ => exact (hsame rfl).elim

/-- What a step reaches comes right after what was reached. -/
theorem follows (h : Telling log ms w) (hc : Chronicle log w) (hl : Lineage w) (hi : Listening w)
    (hn : Unfailing ms w) (hs : Smooth w) (hlive : Live ms taken unread begun w)
    (hu : uneventful w a = true) (ht : step w a = some w') {m : Stage}
    (hm : m.reached w w' = true) : ∀ p ∈ m.follows, p ∈ log := by
  have hmove := moves_step ht
  have hshift := Shift.of_move hl hc.setting hmove
  cases m with
  | rootCreated =>
    simp only [Stage.reached, Bool.and_eq_true, decide_eq_true_eq] at hm
    have hpresent := (hlive.manned.holding (by simp [hm.1, SupervisorPc.holding])).2
    simpa [Stage.follows] using hc.present hpresent
  | childReleased =>
    simp only [Stage.reached, Bool.and_eq_true, Bool.not_eq_true'] at hm
    have hpc := (hshift.released hm.2).resolve_left (by simp [hm.1])
    simpa [Stage.follows] using hc.held.2 (hs.attached hpc.1)
  | cleanup =>
    simp only [Stage.reached, Bool.and_eq_true, Bool.not_eq_true'] at hm
    have hA := (hshift.reaped hm.2).resolve_left (by simp [hm.1])
    simpa [Stage.follows] using h.left hA
  | cleaned =>
    simp only [Stage.reached, Bool.and_eq_true, Bool.not_eq_true'] at hm
    obtain ⟨retries, hpc⟩ := removing_of_cleaned hl hi hn hs hlive hu ht hm.1 hm.2
    simpa [Stage.follows] using hc.dead.2 (hs.removing retries hpc)
  | _ => exact hc.grounded hshift hm

theorem ended_of_move (h : Telling log ms w) (hr : Recorded w) (hu : uneventful w a = true)
    (hm : Move w a w') (hB : ∃ s, w'.childB = .exited s) :
    Stage.finished ∈ log ∨ Stage.finished.reached w w' = true := by
  simp only [Stage.reached, Bool.and_eq_true, decide_eq_true_eq]
  have hended := h.ended
  cases hm with
  | runner hm => exact .inl (hended (by rwa [← hm.childB]))
  | supervisor hm => exact .inl (hended (by rwa [← hm.childB]))
  | childA hm =>
    cases hm with
    | forked =>
      rcases ChildB.next_cases childBSetup with hB' | hB' <;> grind -linarith
    | _ => exact .inl (hended hB)
  | childB hm =>
    cases hm with
    | again => exact .inl (hended hB)
    | @setupDone _ rest => have := ChildB.next_cases rest; grind -linarith
    | setupFailed => grind -linarith
    | told hpc | reportLost hpc => exact absurd hpc (hr.silentB _)
  | diedSupervisor | diedA | diedB => simp [uneventful] at hu
  | finished hpc => exact .inr ⟨hpc, by rintro ⟨⟩⟩
  | _ => exact .inl (hended hB)

theorem left_of_move (h : Telling log ms w) (hl : Lineage w) (hr : Recorded w) (hs : Smooth w)
    (hlive : Live ms taken unread begun w) (hu : uneventful w a = true) (hm : Move w a w')
    (hA : ∃ s, w'.childA = .exited s) : Stage.finished ∈ log := by
  have hleft := h.left
  cases hm with
  | runner hm => exact hleft (by rwa [← hm.childA])
  | supervisor hm =>
    rcases hm.phases with ⟨-, he, -, -⟩ | ⟨-, -, he, -, -⟩ | ⟨-, -, he, -⟩ | ⟨-, he, -, -⟩ <;>
      rw [he] at hA
    · exact hleft hA
    · obtain ⟨s, ⟨⟩⟩ := hA
    · exact hleft hA
    · exact hleft hA
  | @childA x _ hm =>
    cases hm with
    | again => exact hleft hA
    | abandoned hpc hlost =>
      rcases hlost with ⟨hheld, hsync⟩ | ⟨e, rfl⟩
      · exact absurd hpc (hlive.not_waiting hl hs.free hheld hsync)
      · simp [uneventful, blameless, Act.faultless] at hu
    | released hpc => have := ChildA.next_cases childASetup; grind -linarith
    | @setupDone _ rest => have := ChildA.next_cases rest; grind -linarith
    | toldControl hpc | toldStatus hpc | reportLost hpc => exact absurd hpc (hr.silentA _ _)
    | @left b_status hpc => exact h.ended ⟨b_status, hr.leave b_status (.inr hpc)⟩
    | _ => grind -linarith
  | childB hm => exact hleft (by rwa [← hm.childA])
  | diedSupervisor | diedA | diedB => simp [uneventful] at hu
  | _ => exact hleft hA

/-- The end is not told before the cgroup is gone. -/
theorem unsent_of_move (h : Telling log ms w) (hl : Lineage w) (hi : Listening w)
    (hn : Unfailing ms w) (hs : Smooth w) (hlive : Live ms taken unread begun w)
    (hu : uneventful w a = true) (ht : step w a = some w') {writes : List (List Byte)}
    (hpc : w'.sup.pc = .send .terminated writes) : Stage.cleaned.reached w w' = true := by
  have hunsent := h.unsent
  have hb : blameless w a = true := by
    simp only [uneventful, Bool.and_eq_true] at hu
    exact hu.1.1
  cases moves_step ht with
  | runner hm =>
    rcases hm.sup with he | ⟨-, -, he⟩ <;> rw [he] at hpc
    · exact absurd hpc (hunsent writes)
    · cases hpc
  | @supervisor x _ hm =>
    have hcut := hs.not_cutShort hi hn.recorded (a := .supervisor x)
    have hproper := hlive.proper hl hi (attended_of_blameless hb) hcut ht
    have hholding := hlive.manned.holding
    cases hproper with
    | @sent caller chunk rest hpc' =>
      by_cases hrest : rest = []
      · cases caller <;>
          simp [hrest, Supervisor.sendReturned, Supervisor.exit, Supervisor.go] at hpc
      · obtain rfl : caller = .terminated := by
          simp only [hrest, if_false, Supervisor.go, SupervisorPc.send.injEq] at hpc
          exact hpc.1
        exact absurd hpc' (hunsent _)
    | removedFinished hpc' =>
      have hpresent := (hholding (by simp [hpc', SupervisorPc.holding])).2
      simp [Stage.reached, hpresent]
    | prepared hpc' hnext => rcases hnext with rfl | ⟨n, rfl⟩ <;> cases hpc
    | looked _ hnext => rcases hnext with ⟨rfl, -⟩ | rfl | rfl <;> cases hpc
    | gotOrder _ hnext => rcases hnext with rfl | rfl | rfl <;> cases hpc
    | killWritten _ hnext => rcases hnext with rfl | rfl <;> cases hpc
    | _ => cases hpc
  | childA hm => exact absurd (hm.sup ▸ hpc) (hunsent writes)
  | childB hm => exact absurd (hm.sup ▸ hpc) (hunsent writes)
  | diedSupervisor => cases hpc
  | _ => exact absurd hpc (hunsent writes)

theorem keep (h : Telling log ms w) (hc : Chronicle log w) (hl : Lineage w) (hi : Listening w)
    (hn : Unfailing ms w) (hs : Smooth w) (hlive : Live ms taken unread begun w)
    (hu : uneventful w a = true) (ht : step w a = some w') :
    log ++ stages w a = Stage.documented ∨
      Telling (log ++ stages w a) (ms ++ completed w a) w' := by
  have hmove := moves_step ht
  have hshift := Shift.of_move hl hc.setting hmove
  have hordered : Milestones.Ordered Stage.follows (fun _ => []) (log ++ stages w a) := by
    refine h.ordered.append ((pairwise_stages ht).imp fun hp => ⟨hp.1, List.not_mem_nil⟩) ?_ ?_ ?_
    · exact fun m hm => hc.fresh hshift ((mem_stages ht).1 hm)
    · exact fun m hm => h.follows hc hl hi hn hs hlive hu ht ((mem_stages ht).1 hm)
    · rintro _ _ _ ⟨⟩
  by_cases hcleaned : Stage.cleaned ∈ log ++ stages w a
  · exact .inl (Stage.eq_documented hordered hcleaned)
  · refine .inr ⟨hordered, fun hB => ?_, fun hA => ?_, ?_, ?_⟩
    · rw [List.mem_append, mem_stages ht]
      exact h.ended_of_move hn.recorded hu hmove hB
    · exact List.mem_append_left _ (h.left_of_move hl hn.recorded hs hlive hu hmove hA)
    · intro writes hpc
      refine hcleaned (List.mem_append_right _ ((mem_stages ht).2 ?_))
      exact h.unsent_of_move hl hi hn hs hlive hu ht hpc
    · intro m hm htype
      rcases List.mem_append.1 hm with hm | hm
      · exact h.untold m hm htype
      rcases half_of_completed hm with hsup | hA
      · clear hm
        unfold SupervisorPc.half at hsup
        split at hsup <;> cases hsup
        rename_i caller payload hpc
        obtain rfl := SendCaller.eq_terminated htype
        exact h.unsent _ hpc
      · simp [hn.recorded.half_eq_none] at hA

theorem init (q : Request) : Telling [] [] (.init q) := by
  refine ⟨.nil, ?_, ?_, ?_, ?_⟩ <;> simp [World.init]

end Telling

/-! ## The whole run -/

/-- The lifecycle is not complete yet. -/
structure Underway (log : List Stage) (ms : List Message) (w : World) : Prop where
  unfailing : Unfailing ms w
  smooth : Smooth w
  live : ∃ taken unread begun, Live ms taken unread begun w
  telling : Telling log ms w

theorem Settled.not_telling (h : Settled ms w) (hn : Unfailing ms w) : ¬ Telling log ms w := by
  intro ht
  cases h.terminal with
  | failed hm =>
    obtain ⟨m, hm, htype⟩ := hm
    exact hn.sent m hm htype
  | ended hm =>
    obtain ⟨m, hm, htype⟩ := hm
    exact ht.untold m hm htype

namespace Underway

theorem keep (h : Underway log ms w) (hc : Chronicle log w) (hl : Lineage w) (hi : Listening w)
    (hu : uneventful w a = true) (ht : step w a = some w') :
    log ++ stages w a = Stage.documented ∨
      Underway (log ++ stages w a) (ms ++ completed w a) w' := by
  obtain ⟨hn, hs, ⟨taken, unread, begun, hlive⟩, htelling⟩ := h
  have hcut := hs.not_cutShort hi hn.recorded (a := a)
  obtain ⟨⟨hb, hheard⟩, -⟩ : (blameless w a = true ∧ unheard w a = false) ∧ _ := by
    simpa only [uneventful, Bool.and_eq_true, Bool.not_eq_true'] using hu
  have hn' := hn.keep hl hi hb ht
  refine (htelling.keep hc hl hi hn hs hlive hu ht).imp_right fun htelling' => ?_
  refine ⟨hn', hs.keep hl hi hn.recorded hlive hu hcut ht, ?_, htelling'⟩
  have horderly := orderly_of_blameless hn.recorded hb hheard hcut
  refine (hlive.keep hl hi horderly ht).resolve_right fun hsettled => ?_
  exact hsettled.not_telling hn' htelling'

theorem not_returned (h : Underway log ms w) : w.runner.pc ≠ .returned := by
  obtain ⟨hn, -, ⟨taken, unread, begun, hlive⟩, htelling⟩ := h
  intro hpc
  have hsession : Session ms w := .inl ⟨taken, unread, begun, hlive⟩
  rcases hsession.returned hpc with ⟨⟨m, hm, htype⟩, -⟩ | ⟨⟨m, hm, htype⟩, -⟩
  · exact hn.sent m hm htype
  · exact htelling.untold m hm htype

theorem init (q : Request) : Underway [] [] (.init q) := by
  refine ⟨.init q, .init q, ?_, .init q⟩
  rcases Session.init q with hlive | hsettled
  · exact hlive
  · exact (hsettled.not_telling (.init q) (Telling.init q)).elim

end Underway

/-- Nothing is left to reach. -/
theorem Chronicle.stages_eq_nil (hc : Chronicle Stage.documented w) (hl : Lineage w)
    (ht : step w a = some w') : stages w a = [] := by
  refine List.eq_nil_iff_forall_not_mem.2 fun m hm => ?_
  have hs := Shift.of_move hl hc.setting (moves_step ht)
  exact hc.fresh hs ((mem_stages ht).1 hm) m.mem_documented

/-- An uneventful run goes through the documented lifecycle, to its end if it
returns. -/
theorem uneventful_lifecycle (h : Runs q acts w)
    (hu : Machine.Along step (fun s a => uneventful s a = true) (.init q) acts) :
    Machine.collect step stages (.init q) acts <+: Stage.documented ∧
      (w.runner.pc = .returned →
        Machine.collect step stages (.init q) acts = Stage.documented) := by
  have hreach := Machine.run_collect (f := stages)
    (I := fun log s => Lineage s ∧ Listening s ∧ Chronicle log s ∧
      (log = Stage.documented ∨ ∃ ms, Underway log ms s))
    (fun log s a t hu ⟨hl, hi, hc, hs⟩ ht => by
      refine ⟨hl.keep (moves_step ht), hi.keep hl (moves_step ht), hc.keep hl ht, ?_⟩
      rcases hs with rfl | ⟨ms, hs⟩
      · exact .inl (by rw [hc.stages_eq_nil hl ht, List.append_nil])
      · exact (hs.keep hc hl hi hu ht).imp_right fun hs => ⟨_, hs⟩)
    (l := []) ⟨.init q, .init q, .init q, .inr ⟨[], .init q⟩⟩ hu h
  obtain ⟨-, -, -, hstory | ⟨ms, hstory⟩⟩ := hreach
  · rw [List.nil_append] at hstory
    exact ⟨by rw [hstory], fun _ => hstory⟩
  · refine ⟨Stage.prefix_documented hstory.telling.ordered, fun hpc => ?_⟩
    exact absurd hpc hstory.not_returned

/-- A submission that ends by itself. -/
theorem uneventful_lifecycle_completes :
    ∃ w, Runs ⟨[], 1000, 0⟩ (completes 0) w ∧ w.runner.pc = .returned ∧
      Machine.collect step stages (.init ⟨[], 1000, 0⟩) (completes 0) = Stage.documented := by
  obtain ⟨w, hw, hpc⟩ : ∃ w, Runs ⟨[], 1000, 0⟩ (completes 0) w ∧ w.runner.pc = .returned :=
    exists_run (by decide +kernel)
  exact ⟨w, hw, hpc, (uneventful_lifecycle hw (by decide +kernel)).2 hpc⟩

end OnlineJudge
