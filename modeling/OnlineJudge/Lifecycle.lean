import Mathlib.Data.List.Infix
import OnlineJudge.Lib.Milestones
import OnlineJudge.Lineage

/-!
# The lifecycle of an execution

The stages of the documented lifecycle model, from `CREATED`, where every
execution begins, to `CLEANED`, and when the system reaches them. Whatever the
calls return and whoever is killed, no stage is reached twice, and none before
the stages it rests on; without a fault they are reached in the documented order.
-/

namespace OnlineJudge

inductive Stage
  | cgroupCreated
  | rootCreated
  | childCreated
  | childInCgroup
  | childReleased
  | isolationInitialized
  | filesystemReady
  | executing
  | finished
  | cleanup
  | cleaned
  deriving DecidableEq

namespace Stage

/-- The lifecycle in its documented order. -/
def documented : List Stage :=
  [cgroupCreated, rootCreated, childCreated, childInCgroup, childReleased, isolationInitialized,
    filesystemReady, executing, finished, cleanup, cleaned]

/-- What a stage rests on whatever happens. A host without cgroup access skips
the cgroup, and a kill the end of the submission. -/
def requires : Stage → List Stage
  | cgroupCreated | rootCreated => []
  | childCreated => [rootCreated]
  | childInCgroup => [cgroupCreated, childCreated]
  | childReleased => [childCreated]
  | isolationInitialized => [childReleased]
  | filesystemReady => [isolationInitialized]
  | executing => [filesystemReady]
  | finished => [executing]
  | cleanup => [childCreated]
  | cleaned => [cgroupCreated]

/-- What may not have happened before. -/
def excludes : Stage → List Stage
  | cgroupCreated => [rootCreated]
  | childInCgroup => [childReleased]
  | _ => []

/-- The way of a submission. -/
def submitted : List Stage :=
  [rootCreated, childCreated, childReleased, isolationInitialized, filesystemReady, executing,
    finished]

end Stage

/-! ## Reaching a stage -/

/-- A setup call that has to do with the file system of the submission. -/
def SetupCall.buildsRoot (call : SetupCall) : Bool := call.stage = .filesystem

namespace ChildA

/-- Not past its isolation. -/
def exposed : ChildA → Bool
  | unborn | awaitRelease | setup _ _ => true
  | _ => false

end ChildA

namespace ChildB

/-- Its root is not ready. -/
def rootless : ChildB → Bool
  | unborn => true
  | setup call _ => call.buildsRoot
  | _ => false

/-- Its root is ready, and the submission about to start. -/
def starting : ChildB → Bool
  | setup call _ => !call.buildsRoot
  | _ => false

end ChildB

/-- The step from `w` to `w'` reaches the stage. -/
def Stage.reached (w w' : World) : Stage → Bool
  | cgroupCreated => !w.cgroup.present && w'.cgroup.present
  | rootCreated => w.sup.pc = .mkdtemp && w'.sup.pc = .createPipes 0
  | childCreated => w.childA = .unborn && w'.childA ≠ .unborn
  | childInCgroup => !w.cgroup.hasA && w'.cgroup.hasA
  | childReleased => !w.released && w'.released
  | isolationInitialized => w.childA.exposed && w'.childA = .fork
  | filesystemReady => w.childB.rootless && w'.childB.starting
  | executing => w.childB ≠ .running && w'.childB = .running
  | finished => w.childB = .running && w'.childB ≠ .running
  | cleanup => !w.reaped.childA && w'.reaped.childA
  | cleaned => w.cgroup.present && !w'.cgroup.present

/-- The stages that an action reaches. -/
def stages (w : World) (a : Act) : List Stage :=
  (step w a).elim [] fun w' => Stage.documented.filter fun m => m.reached w w'

/-- A run of a submission that ends by itself goes through all of them. -/
example :
    Machine.collect step stages (.init ⟨[], 1000, 0⟩) (completes 0) = Stage.documented := by
  decide +kernel

variable {q : Request} {acts : List Act} {w w' : World} {x : Answer} {a : Act}

theorem stages_eq (h : step w a = some w') :
    stages w a = Stage.documented.filter fun m => m.reached w w' := by
  simp only [stages, h, Option.elim_some]

theorem Stage.mem_documented (m : Stage) : m ∈ documented := by cases m <;> decide

theorem mem_stages (h : step w a = some w') {m : Stage} :
    m ∈ stages w a ↔ m.reached w w' = true := by
  simp [stages_eq h, Stage.mem_documented]

theorem pairwise_stages (h : step w a = some w') :
    (stages w a).Pairwise fun p m => p ≠ m ∧ p ∉ m.excludes := by
  have hall : Stage.documented.Pairwise fun p m => p ≠ m ∧ p ∉ m.excludes := by decide
  rw [stages_eq h]
  exact hall.filter _

/-! ## What a step can change -/

/-- How far the supervisor has prepared the execution. -/
def SupervisorPc.prepared : SupervisorPc → Nat
  | unborn | mkdirCgroup => 0
  | mkdtemp => 1
  | createPipes _ | fork => 2
  | _ => 3

theorem prepared_le (pc : SupervisorPc) : pc.prepared ≤ 3 := by
  cases pc <;> simp [SupervisorPc.prepared]

attribute [grind =] SupervisorPc.prepared ChildA.exposed ChildB.rootless ChildB.starting

theorem rootless_of_starting {b : ChildB} (h : b.starting = true) : b.rootless = false := by
  cases b <;> simp_all [ChildB.starting, ChildB.rootless]

/-- Nothing goes back, and what is new rests on something. -/
structure Shift (w w' : World) : Prop where
  prepared : w.sup.pc.prepared ≤ w'.sup.pc.prepared
  present : w'.cgroup.present = true →
    w.cgroup.present = true ∨ w.sup.pc.prepared = 0 ∧ w'.sup.pc.prepared = 1
  rooted : w'.sup.pc.prepared = 2 →
    w.sup.pc.prepared = 2 ∨ w.sup.pc = .mkdtemp ∧ w'.sup.pc = .createPipes 0
  born : w.childA ≠ .unborn → w'.childA ≠ .unborn
  forked : w'.childA ≠ .unborn → w.childA ≠ .unborn ∨ w.sup.pc.prepared = 2
  held : w.cgroup.hasA = true → w'.cgroup.hasA = true
  attached : w'.cgroup.hasA = true →
    w.cgroup.hasA = true ∨ w.cgroup.present = true ∧ w.childA ≠ .unborn ∧ w.released = false
  free : w.released = true → w'.released = true
  released : w'.released = true →
    w.released = true ∨ w.sup.pc = .release ∧ w.childA ≠ .unborn
  exposed : w'.childA.exposed = true → w.childA.exposed = true
  isolated : w'.childA = .fork → w.childA = .fork ∨ w.childA.exposed = true ∧ w.released = true
  bornB : w.childB ≠ .unborn → w'.childB ≠ .unborn
  forkedB : w'.childB ≠ .unborn → w.childB ≠ .unborn ∨ w.childA = .fork
  rootless : w'.childB.rootless = true → w.childB.rootless = true
  starting : w'.childB.starting = true →
    w.childB.starting = true ∨ w.childB.rootless = true ∧ w.childB ≠ .unborn
  running : w'.childB = .running → w.childB = .running ∨ w.childB.starting = true
  ran : w.childB = .running → w'.childB = .running ∨ ∃ s, w'.childB = .exited s
  gone : (∃ s, w.childB = .exited s) → ∃ s, w'.childB = .exited s
  dead : w.reaped.childA = true → w'.reaped.childA = true
  reaped : w'.reaped.childA = true → w.reaped.childA = true ∨ ∃ s, w.childA = .exited s

/-- What Child B has still to set up is the rest of its list. -/
def Setting (w : World) : Prop :=
  ∀ call rest, w.childB = .setup call rest → call :: rest <:+ childBSetup

theorem buildsRoot_of_last {call : SetupCall} (h : [call] <:+ childBSetup) :
    call.buildsRoot = false := by
  have hlast : [call] ∈ childBSetup.tails := (List.mem_tails _ _).2 h
  simp only [childBSetup, List.tails, List.mem_cons] at hlast
  simp at hlast
  subst hlast
  rfl

/-- The root is built first. -/
theorem buildsRoot_of_tail {call next : SetupCall} {rest : List SetupCall}
    (h : call :: next :: rest <:+ childBSetup) (hnext : next.buildsRoot = true) :
    call.buildsRoot = true := by
  have hmem : call :: next :: rest ∈ childBSetup.tails := (List.mem_tails _ _).2 h
  simp only [childBSetup, List.tails, List.mem_cons, List.cons.injEq] at hmem
  simp at hmem
  obtain h | h | h | h | h | h | h | h | h | h | h | h | h | h := hmem <;> obtain ⟨rfl, rfl, -⟩ := h
  all_goals first | rfl | cases hnext

namespace Shift

/-- A step that leaves the processes' program counters and the cgroup alone. -/
theorem of_same (hs : w'.sup.pc.prepared = w.sup.pc.prepared)
    (hp : w'.cgroup.present = true → w.cgroup.present = true) (hA : w'.childA = w.childA)
    (hB : w'.childB = w.childB) (hh : w'.cgroup.hasA = w.cgroup.hasA)
    (hr : w'.released = w.released) (hd : w'.reaped.childA = w.reaped.childA) : Shift w w' := by
  constructor <;> grind -linarith

theorem runner (hl : Lineage w) (hm : Runner.Move w x w') : Shift w w' := by
  have hp : w'.cgroup.present = true → w.cgroup.present = true := by
    cases hm <;> simp [World.killCgroup]
  have hd : w'.reaped.childA = w.reaped.childA := by cases hm <;> rfl
  have hA := hm.childA
  have hB := hm.childB
  have hr := hm.released
  have hh := hm.hasA
  rcases hm.sup with hs | ⟨hpc, -, hs⟩
  · exact of_same (by rw [hs]) hp hA hB hh hr hd
  · have hunborn := hl.unforked hpc
    exact of_same (by rw [hs, hunborn]; rfl) hp hA hB hh hr hd

theorem childA (hl : Lineage w) (hm : ChildA.Move w x w') : Shift w w' := by
  have hwaiting := hl.waiting
  cases hm with
  | released => constructor <;> grind -linarith [childASetup, ChildA.next]
  | @setupDone _ rest => have := ChildA.next_cases rest; constructor <;> grind -linarith
  | forked =>
    have := hl.unbornB
    have := ChildB.next_cases childBSetup
    constructor <;>
      grind -linarith [childBSetup, ChildB.next, SetupCall.buildsRoot, SetupCall.stage]
  | _ => constructor <;> grind -linarith

theorem childB (hset : Setting w) (hm : ChildB.Move w x w') : Shift w w' := by
  cases hm with
  | @setupDone call rest hpc =>
    have hsuffix := hset call rest hpc
    cases rest with
    | nil =>
      have := buildsRoot_of_last hsuffix
      constructor <;> grind -linarith [ChildB.next]
    | cons next rest =>
      have := buildsRoot_of_tail hsuffix
      constructor <;> grind -linarith [ChildB.next]
  | _ => constructor <;> grind -linarith

theorem supervisor (hl : Lineage w) (hm : Supervisor.Move w x w') : Shift w w' := by
  have hunborn := hl.unborn
  have hborn := hl.born
  have hheld := hl.held
  cases hm with
  | madePipe hpc => constructor <;> grind -linarith
  | startFailed hx => constructor <;> grind -linarith
  | @sent caller | @sendFailed _ caller | @openedKill caller | @killWritten caller
  | @killDenied _ caller
  | @killFailed _ caller | @removed caller | @removeBusy caller | @removeDenied caller
  | @removeFailed caller =>
    cases caller <;> constructor <;> grind -linarith
  | gotControl =>
    rcases w.sup.handleControl_cases
      (.ofBytes (w.toSup.pending.take headerSize)) with he | ⟨he, -⟩ | ⟨he, -⟩ | ⟨he, -⟩ <;>
      simp only [he] <;> constructor <;> grind -linarith
  | @gotStatus r => cases r <;> constructor <;> grind -linarith
  | waitedA site | waitAFailed site => cases site <;> constructor <;> grind -linarith
  | _ => constructor <;> grind -linarith

theorem of_move (hl : Lineage w) (hset : Setting w) (h : Move w a w') : Shift w w' := by
  cases h with
  | runner hm => exact runner hl hm
  | supervisor hm => exact supervisor hl hm
  | childA hm => exact childA hl hm
  | childB hm => exact childB hset hm
  | diedSupervisor =>
    exact ⟨prepared_le _, by grind -linarith, by rintro ⟨⟩, id, .inl, id, .inl, id, .inl, id, .inl,
      id, .inl, id, .inl, .inl, .inl, id, id, .inl⟩
  | _ => constructor <;> grind -linarith [Supervisor.go]

end Shift

theorem Setting.keep (hset : Setting w) (h : Move w a w') : Setting w' := by
  intro call rest hpc
  have hsame (hB : w'.childB = w.childB) : call :: rest <:+ childBSetup :=
    hset call rest (hB ▸ hpc)
  cases h with
  | runner hm => exact hsame hm.childB
  | supervisor hm => exact hsame hm.childB
  | childA hm =>
    cases hm with
    | forked =>
      obtain ⟨rfl, rfl⟩ : SetupCall.createExecutable = call ∧ _ = rest := by
        simpa [childBSetup, ChildB.next] using hpc
      exact List.suffix_refl _
    | _ => exact hsame rfl
  | childB hm =>
    cases hm with
    | @setupDone done left hdone =>
      have hsuffix := hset done left hdone
      cases left with
      | nil => simp [ChildB.next] at hpc
      | cons next left =>
        obtain ⟨rfl, rfl⟩ : next = call ∧ left = rest := by simpa [ChildB.next] using hpc
        exact (List.suffix_cons done _).trans hsuffix
    | again => exact hsame rfl
    | setupFailed | told | reportLost => grind -linarith
  | finished | diedB => cases hpc
  | _ => exact hsame rfl

/-! ## What was reached -/

/-- The log of a run, against the state it led to. -/
structure Chronicle (log : List Stage) (w : World) : Prop where
  ordered : Milestones.Ordered Stage.requires Stage.excludes log
  setting : Setting w
  prepared : Stage.cgroupCreated ∈ log → 0 < w.sup.pc.prepared
  present : w.cgroup.present = true → Stage.cgroupCreated ∈ log
  rooted : Stage.rootCreated ∈ log → 1 < w.sup.pc.prepared
  root : w.sup.pc.prepared = 2 → Stage.rootCreated ∈ log
  born : Stage.childCreated ∈ log ↔ w.childA ≠ .unborn
  held : Stage.childInCgroup ∈ log ↔ w.cgroup.hasA = true
  free : Stage.childReleased ∈ log ↔ w.released = true
  isolated : Stage.isolationInitialized ∈ log → w.childA.exposed = false
  forking : w.childA = .fork ∨ w.childB ≠ .unborn → Stage.isolationInitialized ∈ log
  rootless : Stage.filesystemReady ∈ log → w.childB.rootless = false
  ready : w.childB.starting = true ∨ w.childB = .running → Stage.filesystemReady ∈ log
  ran : Stage.executing ∈ log → w.childB = .running ∨ ∃ s, w.childB = .exited s
  running : w.childB = .running → Stage.executing ∈ log
  gone : Stage.finished ∈ log → ∃ s, w.childB = .exited s
  dead : Stage.cleanup ∈ log ↔ w.reaped.childA = true
  cleaned : Stage.cleaned ∈ log → w.cgroup.present = false ∧ 0 < w.sup.pc.prepared

namespace Chronicle

variable {log : List Stage}

theorem init (q : Request) : Chronicle [] (.init q) := by
  constructor
  · exact .nil
  all_goals simp [World.init, SupervisorPc.prepared, ChildB.starting, Setting]

/-- What a step reaches is new. -/
theorem fresh (hc : Chronicle log w) (hs : Shift w w') {m : Stage}
    (hm : m.reached w w' = true) : m ∉ log := by
  intro hmem
  have hborn := hs.bornB
  cases m <;> simp only [Stage.reached, Bool.and_eq_true, Bool.not_eq_true', decide_eq_true_eq,
    ne_eq] at hm
  case cgroupCreated => have := hc.prepared hmem; have := hs.present hm.2; grind -linarith
  case rootCreated => have := hc.rooted hmem; grind -linarith
  case childCreated => exact hc.born.1 hmem hm.1
  case childInCgroup => have := hc.held.1 hmem; grind -linarith
  case childReleased => have := hc.free.1 hmem; grind -linarith
  case isolationInitialized => have := hc.isolated hmem; grind -linarith
  case filesystemReady => have := hc.rootless hmem; grind -linarith
  case executing => have := hc.ran hmem; have := hs.gone; grind -linarith
  case finished => have := hc.gone hmem; grind -linarith
  case cleanup => have := hc.dead.1 hmem; grind -linarith
  case cleaned => have := hc.cleaned hmem; grind -linarith

/-- And what it rests on was reached. -/
theorem grounded (hc : Chronicle log w) (hs : Shift w w') {m : Stage}
    (hm : m.reached w w' = true) : ∀ p ∈ m.requires, p ∈ log := by
  intro p hp
  cases m <;> simp only [Stage.reached, Bool.and_eq_true, Bool.not_eq_true', decide_eq_true_eq,
    ne_eq] at hm <;> simp only [Stage.requires, List.mem_cons, List.not_mem_nil, or_false] at hp
  case childCreated => subst hp; exact hc.root ((hs.forked hm.2).resolve_left (absurd hm.1))
  case childInCgroup =>
    obtain ⟨hpresent, hborn, -⟩ := (hs.attached hm.2).resolve_left (by simp [hm.1])
    rcases hp with rfl | rfl
    · exact hc.present hpresent
    · exact hc.born.2 hborn
  case childReleased =>
    subst hp
    exact hc.born.2 ((hs.released hm.2).resolve_left (by simp [hm.1])).2
  case isolationInitialized =>
    subst hp
    have := hs.isolated hm.2
    exact hc.free.2 (by grind -linarith)
  case filesystemReady =>
    subst hp
    have := hs.starting hm.2
    exact hc.forking (by grind -linarith)
  case executing => subst hp; exact hc.ready (.inl ((hs.running hm.2).resolve_left hm.1))
  case finished => subst hp; exact hc.running hm.1
  case cleanup =>
    subst hp
    have := hs.reaped hm.2
    exact hc.born.2 (by grind -linarith)
  case cleaned => subst hp; exact hc.present hm.1

theorem timely (hc : Chronicle log w) (hs : Shift w w') {m : Stage}
    (hm : m.reached w w' = true) : ∀ p ∈ m.excludes, p ∉ log := by
  intro p hp hmem
  cases m <;> simp only [Stage.excludes, List.mem_cons, List.not_mem_nil, or_false] at hp <;>
    subst hp <;> simp only [Stage.reached, Bool.and_eq_true, Bool.not_eq_true'] at hm
  case cgroupCreated => have := hc.rooted hmem; have := hs.present hm.2; grind -linarith
  case childInCgroup => have := hc.free.1 hmem; have := hs.attached hm.2; grind -linarith

theorem keep (hl : Lineage w) (hc : Chronicle log w) (h : step w a = some w') :
    Chronicle (log ++ stages w a) w' := by
  have hmove := moves_step h
  have hs := Shift.of_move hl hc.setting hmove
  have hmem (m : Stage) : m ∈ log ++ stages w a ↔ m ∈ log ∨ m.reached w w' = true := by
    rw [List.mem_append, mem_stages h]
  constructor
  · exact hc.ordered.append (pairwise_stages h) (fun m hm => hc.fresh hs ((mem_stages h).1 hm))
      (fun m hm => hc.grounded hs ((mem_stages h).1 hm))
      fun m hm => hc.timely hs ((mem_stages h).1 hm)
  · exact hc.setting.keep hmove
  all_goals
    simp only [hmem, Stage.reached, Bool.and_eq_true, Bool.not_eq_true', decide_eq_true_eq, ne_eq]
  · have := hc.prepared; have := hs.prepared; have := hs.present; grind -linarith
  · have := hc.present; have := hs.present; grind -linarith
  · have := hc.rooted; have := hs.prepared; grind -linarith
  · have := hc.root; have := hs.rooted; grind -linarith
  · have := hc.born; have := hs.born; grind -linarith
  · have := hc.held; have := hs.held; grind -linarith
  · have := hc.free; have := hs.free; grind -linarith
  · have := hc.isolated; have := hs.exposed; grind -linarith
  · have := hc.forking; have := hs.isolated; have := hs.forkedB; grind -linarith
  · rintro (hold | ⟨-, hnew⟩)
    · have := hc.rootless hold; have := hs.rootless; grind -linarith
    · exact rootless_of_starting hnew
  · have := hc.ready; have := hs.starting; have := hs.running; grind -linarith
  · have := hc.ran; have := hs.ran; have := hs.gone; grind -linarith
  · have := hc.running; grind -linarith
  · have := hc.gone; have := hs.ran; have := hs.gone; grind -linarith
  · have := hc.dead; have := hs.dead; grind -linarith
  · have := hc.cleaned; have := hc.present; have := hc.prepared; have := hs.present
    have := hs.prepared; grind -linarith

theorem reach (h : Runs q acts w) : Chronicle (Machine.collect step stages (.init q) acts) w := by
  have := Machine.run_collect (P := fun _ _ => True) (f := stages)
    (I := fun log s => Lineage s ∧ Chronicle log s)
    (fun log s a t _ ⟨hl, hc⟩ ht => ⟨hl.keep (moves_step ht), hc.keep hl ht⟩) (l := [])
    ⟨.init q, .init q⟩ (Machine.along_of_forall fun _ _ _ => trivial) h
  exact this.2

end Chronicle

/-- Whatever fails and whoever is killed, an execution reaches each stage at most
once and after those it rests on, puts no process into the cgroup that was
released already, and takes the submission through its stages in order. -/
theorem lifecycle_in_order (h : Runs q acts w) :
    (∀ before m after, Machine.collect step stages (.init q) acts = before ++ m :: after →
      m ∉ before ∧ (∀ p ∈ m.requires, p ∈ before) ∧ ∀ p ∈ m.excludes, p ∉ before) ∧
    (Machine.collect step stages (.init q) acts).filter (· ∈ Stage.submitted) <+:
      Stage.submitted := by
  have hordered := (Chronicle.reach h).ordered
  exact ⟨fun before m after hlog => hordered.before hlog,
    hordered.prefix_of_chain (by decide) (by decide)⟩

/-- A submission that ends by itself. -/
theorem lifecycle_in_order_completes :
    ∃ w, Runs ⟨[], 1000, 0⟩ (completes 0) w ∧
      (Machine.collect step stages (.init ⟨[], 1000, 0⟩) (completes 0)).filter
        (· ∈ Stage.submitted) <+: Stage.submitted := by
  obtain ⟨w, hw, -⟩ : ∃ w, Runs ⟨[], 1000, 0⟩ (completes 0) w ∧ w.runner.pc = .returned :=
    exists_run (by decide +kernel)
  exact ⟨w, hw, (lifecycle_in_order hw).2⟩

end OnlineJudge
