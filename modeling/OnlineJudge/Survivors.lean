import OnlineJudge.Custody
import OnlineJudge.Opening

/-!
# Survivors

`ProcessRunner::run` must not return anything but `SandboxFailure` while a part
of the submission may still run. What it knows comes from `Terminated` or from
its own cleanup, and some of its call sites do not look at what the cleanup
found.
-/

namespace OnlineJudge

variable {q : Request} {acts : List Act} {w w' : World} {x : Answer} {a : Act}

/-- The result of the cleanup routine does not get into the status. -/
def Cleanup.discards : Cleanup → Bool
  | beforeReady unexpected => unexpected
  | afterFailure use => use ≠ .checked

/-- A cleanup routine whose result is dropped is told that containment is not
established. -/
def overlooked (w : World) : Act → Bool
  | .runner x =>
    (match w.runner.pc.site with
      | some site => site.discards
      | none => false) && Runner.uncontained w x
  | _ => false

/-- `is_execution_cgroup_empty` answers yes while a child runs outside of the
cgroup. -/
def escaped (w : World) : Act → Bool
  | .runner x =>
    x = .ok && w.runner.pc matches .lastCheck (.afterFailure _) && w.cgroup.present &&
      !w.populated && (w.childA.alive || w.childB.alive)
  | _ => false

/-- No step hides a survivor. -/
def Covered (w : World) (a : Act) : Prop :=
  overlooked w a = false ∧ escaped w a = false ∧ removalDenied w a = false

instance (w : World) (a : Act) : Decidable (Covered w a) := by
  unfold Covered; infer_instance

/-- `cleanup_after_failure` has made its check of the cgroup. -/
def RunnerPc.afterCheck : RunnerPc → Bool
  | killSupervisor site | waitSupervisor site | accessCgroup site | removeCgroup site =>
    site.afterReady
  | _ => false

attribute [grind =] Cleanup.discards RunnerPc.afterCheck

/-- A `Terminated` that the runner takes is longer than everything else that was
sent. -/
theorem gone_of_terminated (h : Budgeted w) (hlen : terminatedSize ≤ w.toRunner.pending.length) :
    Gone w := by
  rcases h with h | h
  · exact h
  · have : w.toRunner.pending.length ≤ w.toRunner.sent.length := by simp [Channel.sent]
    simp only [terminatedSize] at hlen
    omega

/-- An empty cgroup outside of which nothing runs. -/
theorem gone_of_empty (hborn : w.childA ≠ .unborn) (he : w.childA.alive = false)
    (hb : w.childB.alive = false) : Gone w := by
  refine ⟨?_, hb⟩
  cases hA : w.childA <;> simp_all [ChildA.alive]

/-- What the runner may know: `gone` that the submission has ended, `idle` that
it was never started. -/
structure Knowing (gone idle : Prop) (r : Runner) : Prop where
  finished : r.submission_finished = true → gone
  contained : r.execution_contained = true → gone
  clean : r.pc.watching = true → r.containment_failed = false
  afterCheck : r.pc.afterCheck = true → r.containment_failed = true ∨ r.execution_contained = true
  discards : ∀ site, r.pc.site = some site → site.discards = true → r.containment_failed = false
  returned : r.pc = .returned → (r.result.status ≠ .sandboxFailure → gone ∨ idle) ∧
    (r.containment_failed = true → r.result.status = .sandboxFailure)

namespace Knowing

section
variable {gone gone' idle idle' : Prop} {r : Runner} {site : Cleanup}

theorem mono (h : Knowing gone idle r) (hg : gone → gone') (hi : idle → idle') :
    Knowing gone' idle' r :=
  ⟨fun hf => hg (h.finished hf), fun hc => hg (h.contained hc), h.clean, h.afterCheck, h.discards,
    fun hr => ⟨fun hs => ((h.returned hr).1 hs).imp hg hi, (h.returned hr).2⟩⟩

theorem endCleanup (hf : r.submission_finished = true → gone)
    (hc : r.execution_contained = true → gone)
    (hd : site.discards = true → r.containment_failed = false)
    (ha : site.afterReady = true → r.containment_failed = true ∨ r.execution_contained = true)
    (hs : site ≠ .beforeReady true) : Knowing gone idle (r.endCleanup site) := by
  rcases site with _ | _ | _ | _ <;> constructor <;> grind -linarith

theorem afterReap (hf : r.submission_finished = true → gone)
    (hc : r.execution_contained = true → gone) {use : CleanupUse}
    (hd : use ≠ .checked → r.containment_failed = false)
    (ha : r.containment_failed = true ∨ r.execution_contained = true) :
    Knowing gone idle (r.afterReap use) := by
  unfold Runner.afterReap
  split
  · constructor <;> grind -linarith
  · exact endCleanup hf hc (by simpa [Cleanup.discards] using hd) (fun _ => ha) (by rintro ⟨⟩)

theorem contained_true (hf : r.submission_finished = true → gone)
    (hc : site.afterReady = true → gone) (hc' : r.execution_contained = true → gone)
    (hd : site.discards = true → r.containment_failed = false) :
    Knowing gone idle (r.contained true site) := by
  rcases site with _ | use
  · constructor <;> grind -linarith
  · simp only [Runner.contained, Runner.afterContain, if_true]
    split
    · exact afterReap (by exact hf) (fun _ => hc rfl) (by simpa [Cleanup.discards] using hd)
        (.inr rfl)
    · constructor <;> grind -linarith

theorem contained_false (hf : r.submission_finished = true → gone)
    (hc : r.execution_contained = true → gone) (hd : site.discards = false) :
    Knowing gone idle (r.contained false site) := by
  rcases site with _ | use
  · simp only [Runner.contained, Bool.false_eq_true, if_false]
    exact endCleanup (by exact hf) hc (by simp [hd]) (by rintro ⟨⟩)
      (by rintro ⟨⟩; simp [Cleanup.discards] at hd)
  · have hu : ¬ use ≠ .checked := by simpa [Cleanup.discards] using hd
    simp only [Runner.contained, Runner.afterContain, Bool.false_eq_true, if_false]
    split
    · exact afterReap (by exact hf) (by exact hc) (fun h => absurd h hu) (.inl rfl)
    · constructor <;> grind -linarith

theorem cleanupWaited (hf : r.submission_finished = true → gone)
    (hc : r.execution_contained = true → gone) {ok : Bool}
    (hd : site.discards = true →
      r.containment_failed = false ∧ (site.afterReady = true → ok = true))
    (ha : site.afterReady = true → r.containment_failed = true ∨ r.execution_contained = true) :
    Knowing gone idle (r.cleanupWaited ok site) := by
  rcases site with _ | use
  · constructor <;> grind -linarith
  · simp only [Cleanup.discards, decide_eq_true_eq] at hd
    cases ok
    · have hu : ¬ use ≠ .checked := fun hu => by simpa [Cleanup.afterReady] using hd hu
      exact afterReap (by exact hf) (by exact hc) (fun h => absurd h hu) (.inl rfl)
    · exact afterReap (by exact hf) (by exact hc) (fun h => (hd h).1) (ha rfl)

end

/-- While nothing that matters was found amiss, what is known stays. -/
theorem calm (hf : r.submission_finished = true → gone) (hc : r.execution_contained = true → gone)
    (h : r.containment_failed = false ∧ r.pc.afterCheck = false ∧ r.pc ≠ .returned) :
    Knowing gone idle r :=
  ⟨hf, hc, fun _ => h.1, fun ha => by simp [h.2.1] at ha, fun _ _ _ => h.1,
    fun hr => absurd hr h.2.2⟩

theorem runner (h : Knowing (Gone w) (w.sup.pc = .unborn) w.runner) (hl : Lineage w)
    (ho : Opening w) (hord : w.runner.Ordered)
    (hb : w.runner.pc.watching = true → Budgeted w) (hc : Covered w (.runner x))
    (hm : Runner.Move w x w') : Knowing (Gone w') (w'.sup.pc = .unborn) w'.runner := by
  have hgone : Gone w → Gone w' := fun hg => hg.keep hl (.runner hm)
  have hover : ∀ site, w.runner.pc.site = some site → Runner.uncontained w x = true →
      site.discards = false := by
    intro site hs hu
    simpa [overlooked, hs, hu] using hc.1
  obtain ⟨hfin, hcon, hclean, hafter, hdis, hret⟩ := h
  replace hfin := fun hf => hgone (hfin hf)
  replace hcon := fun hf => hgone (hcon hf)
  cases hm with
  | setupFailed hpc =>
    have := hl.unforked ⟨_, hpc⟩
    clear hover
    constructor <;> grind -linarith
  | got site hlen =>
    cases site with
    | terminated hpc =>
      have hg := hgone (gone_of_terminated (hb (by simp [hpc, RunnerPc.watching])) hlen)
      clear hover
      constructor <;> grind -linarith
    | _ =>
      clear hover hafter hdis hret hc hgone
      exact calm (by grind -linarith) (by grind -linarith) (by grind -linarith)
  | waited site =>
    cases site with
    | @cleanup site hpc =>
      exact cleanupWaited hfin hcon (fun hd => ⟨hdis site (by simp [hpc, RunnerPc.site]) hd,
        fun _ => rfl⟩) (by grind -linarith)
    | terminated hpc =>
      have := hord.settling hpc
      clear hover
      constructor <;> grind -linarith
    | loop hpc => exact absurd hpc hord.reaping
    | _ => clear hover; constructor <;> grind -linarith
  | waitFailed site hx =>
    cases site with
    | @cleanup site hpc =>
      have hu : site.afterReady = true → Runner.uncontained w x = true := by
        rcases site with _ | use
        · rintro ⟨⟩
        · intro _
          rcases hx with ⟨e, rfl, he⟩ | ⟨rfl, hr⟩
          · simp [Runner.uncontained, hpc, Answer.failsWith, he]
          · simp [Runner.uncontained, hpc, hr]
      have hs : w.runner.pc.site = some site := by simp [hpc, RunnerPc.site]
      refine cleanupWaited hfin hcon (fun hd => ⟨hdis site hs hd, fun hr => ?_⟩)
        (by grind -linarith)
      simp [hover site hs (hu hr)] at hd
    | terminated hpc =>
      have := hord.settling hpc
      clear hover
      constructor <;> grind -linarith
    | loop hpc => exact absurd hpc hord.reaping
    | _ => clear hover; constructor <;> grind -linarith
  | @foundEmpty site hpc hp he =>
    refine contained_true hfin (fun hs => ?_) hcon (hdis site (by simp [hpc, RunnerPc.site]))
    rcases site with _ | use
    · cases hs
    · have hesc := hc.2.1
      simp only [escaped, hpc, hp, he, decide_true, Bool.true_and, Bool.not_false,
        Bool.or_eq_false_iff] at hesc
      exact hgone (gone_of_empty (ho.born (by simp [hpc, RunnerPc.entered, Cleanup.afterReady]))
        hesc.1 hesc.2)
  | @killFailed _ site hpc hx =>
    exact contained_false hfin hcon (hover site (by grind -linarith) hx)
  | @foundPopulated _ site hpc hx =>
    exact contained_false hfin hcon (hover site (by grind -linarith) hx)
  | @removeSkipped _ site =>
    have hsite := ho.site
    exact endCleanup hfin hcon (hdis site (by grind -linarith)) (by grind -linarith)
      (by grind -linarith)
  | @removed site =>
    have hsite := ho.site
    exact endCleanup hfin hcon (hdis site (by grind -linarith)) (by grind -linarith)
      (by grind -linarith)
  | @removeFailed _ site hpc hx =>
    have hsite := ho.site
    exact endCleanup hfin hcon (by simp [hover site (by grind -linarith) hx]) (by grind -linarith)
      (by grind -linarith)
  | lost site => cases site <;> exact calm (by exact hfin) (by exact hcon) (by grind -linarith)
  | sent site | sendFailed site =>
    clear hover
    cases site with
    | deadline => exact calm (by grind -linarith) (by grind -linarith) (by grind -linarith)
    | cleanup => constructor <;> grind -linarith
  | again | looped => clear hover; constructor <;> grind -linarith
  | polled =>
    clear hover hafter hdis hret hc hgone
    exact calm (by grind -linarith) (by grind -linarith) (by grind -linarith)
  | setupDone | forked | wrote | brokenStdin | gotStdout | gotStderr | ioFailed =>
    exact calm hfin hcon (by grind -linarith)
  | _ =>
    clear hover
    exact ⟨hfin, hcon, by grind -linarith, by grind -linarith, by grind -linarith,
      by grind -linarith⟩

theorem keep (h : Knowing (Gone w) (w.sup.pc = .unborn) w.runner) (hl : Lineage w)
    (ho : Opening w) (hord : w.runner.Ordered)
    (hb : w.runner.pc.watching = true → Budgeted w) (hc : Covered w a)
    (hm : Move w a w') : Knowing (Gone w') (w'.sup.pc = .unborn) w'.runner := by
  have hgone : Gone w → Gone w' := fun hg => hg.keep hl hm
  cases hm with
  | runner hm => exact h.runner hl ho hord hb hc hm
  | supervisor hm =>
    rw [hm.runner]
    refine h.mono hgone fun hu => ?_
    rcases hm.eq_or_alive with rfl | ha
    · exact hu
    · simp [Supervisor.alive, hu] at ha
  | childA hm => rw [hm.runner]; exact h.mono hgone (by rw [hm.sup]; exact id)
  | childB hm => rw [hm.runner]; exact h.mono hgone (by rw [hm.sup]; exact id)
  | diedSupervisor _ ha =>
    exact h.mono hgone fun hu => by simp [Supervisor.alive, hu] at ha
  | _ => exact h.mono hgone id

theorem init (q : Request) : Knowing (Gone (.init q)) ((World.init q).sup.pc = .unborn)
    (World.init q).runner :=
  ⟨nofun, nofun, fun _ => rfl, nofun, nofun, nofun⟩

end Knowing

/-- What a run that hides no survivor keeps. -/
structure Watch (w : World) : Prop where
  lineage : Lineage w
  opening : Opening w
  ordered : w.runner.Ordered
  custody : w.runner.pc.watching = true → Custody w
  budgeted : w.runner.pc.watching = true → Budgeted w
  knowing : Knowing (Gone w) (w.sup.pc = .unborn) w.runner

theorem Watch.keep (h : Watch w) (hc : Covered w a) (hm : Move w a w') : Watch w' := by
  obtain ⟨hl, ho, hord, hcus, hbud, hk⟩ := h
  have hwatch : w'.runner.pc.watching = true → w.runner.pc.watching = true := by
    intro hw
    cases hm with
    | runner hm => exact (hm.watching hw).1
    | supervisor hm => rwa [hm.runner] at hw
    | childA hm => rwa [hm.runner] at hw
    | childB hm => rwa [hm.runner] at hw
    | _ => exact hw
  have hcus' : w'.runner.pc.watching = true → Custody w' := fun hw =>
    (hcus (hwatch hw)).keep hl hc.2.2 hm hw
  refine ⟨hl.keep hm, ho.keep hl hm, ?_, hcus', fun hw => ?_, hk.keep hl ho hord hbud hc hm⟩
  · cases hm with
    | runner hm => exact hord.move hm
    | supervisor hm => rw [hm.runner]; exact hord
    | childA hm => rw [hm.runner]; exact hord
    | childB hm => rw [hm.runner]; exact hord
    | _ => exact hord
  · exact (hbud (hwatch hw)).keep (hcus (hwatch hw)) (hcus' hw) hl hm

theorem Watch.init (q : Request) : Watch (.init q) :=
  ⟨Lineage.init q, Opening.init q, ⟨nofun, nofun, nofun, nofun, nofun, nofun⟩,
    fun _ => Custody.init q, fun _ => Budgeted.init q, Knowing.init q⟩

theorem Gone.not_alive (h : Gone w) : w.childA.alive = false ∧ w.childB.alive = false := by
  obtain ⟨⟨s, hs⟩, hb⟩ := h
  exact ⟨by simp [hs, ChildA.alive], hb⟩

/-- A run in which no cleanup whose result is dropped fails, no check takes a
cgroup for the whole submission that it does not hold, and no `rmdir` is refused
while Child B runs, returns nothing but `SandboxFailure` before both children
have ended, and whenever containment could not be established. -/
theorem no_unreported_survivor (h : Runs q acts w)
    (hc : Machine.Along step Covered (.init q) acts) (hpc : w.runner.pc = .returned) :
    (w.runner.result.status ≠ .sandboxFailure →
      w.childA.alive = false ∧ w.childB.alive = false) ∧
    (w.runner.containment_failed = true → w.runner.result.status = .sandboxFailure) := by
  have hw : Watch w :=
    Machine.run_invariant (fun _ _ _ hp hs ht => hs.keep hp (moves_step ht)) (Watch.init q) hc h
  refine ⟨fun hs => ?_, (hw.knowing.returned hpc).2⟩
  rcases (hw.knowing.returned hpc).1 hs with hg | hu
  · exact hg.not_alive
  · have hA : w.childA = .unborn := hw.lineage.unborn (by simp [hu, SupervisorPc.phase])
    have hB := hw.lineage.unbornB (by simp [hA, ChildA.beforeFork])
    simp [hA, hB, ChildA.alive, ChildB.alive]

theorem no_unreported_survivor_completed :
    ∃ w : World, w.runner.result.status = .completed ∧ w.childA.alive = false ∧
      w.childB.alive = false := by
  obtain ⟨w, hw, hpc, hs⟩ : ∃ w, Runs ⟨[], 1000, 0⟩ (completes 0) w ∧
      w.runner.pc = .returned ∧ w.runner.result.status = .completed :=
    exists_run (by decide +kernel)
  exact ⟨w, hs, (no_unreported_survivor hw (by decide +kernel) hpc).1 (by simp [hs])⟩

/-- Without a cgroup a supervisor whose `poll` fails kills Child A alone, and the
runner, which reads the end of file, drops the result of its cleanup. -/
theorem survivor_unreported :
    ¬ ∀ (q : Request) (acts : List Act) (w : World), Runs q acts w → w.runner.pc = .returned →
      (w.runner.result.status ≠ .sandboxFailure →
        w.childA.alive = false ∧ w.childB.alive = false) ∧
      (w.runner.containment_failed = true → w.runner.result.status = .sandboxFailure) := by
  intro h
  let acts : List Act := bootDenied ++ List.replicate 13 (Act.childA .ok) ++
    List.replicate 15 (Act.childB .ok) ++
    [Act.supervisor (.fail 12), .supervisor .ok, .die .childA, .supervisor (.reap .zero),
      .runner .ok, .runner (.events { control := true })] ++ List.replicate 105 (Act.runner .ok)
  obtain ⟨w, hw, hpc, hs, hB⟩ : ∃ w, Runs ⟨[], 1000, 0⟩ acts w ∧ w.runner.pc = .returned ∧
      w.runner.result.status = .runnerFailure ∧ w.childB = .running :=
    exists_run (by decide +kernel)
  have := ((h _ _ w hw hpc).1 (by simp [hs])).2
  simp [hB, ChildB.alive] at this

end OnlineJudge
