import OnlineJudge.Lib.MountTable
import OnlineJudge.Lineage

/-!
# Isolation

The mounts that the children make before `execvp`, and what is left of the file
system of the host for the submission. Paths of the sandbox are lists of names.
-/

namespace OnlineJudge

variable {V : Type}

/-! ## The mounts -/

/-- The directories that `finalizeExecutionEnvironment` binds. -/
def dirs : List (List String) := [["lib"], ["lib64"], ["usr"], ["bin"]]

/-- What the calls on mounts are given, and how those end whose errors are
ignored. -/
structure SandboxMounts (V : Type) where
  /-- The directory that `mkdtemp` made. -/
  root_path : List String
  executable_path : List String
  /-- The place that a path of the host leads to once its symbolic links are
  followed, from the working directory when it is relative. -/
  resolved : List String → List String
  /-- The `proc` of the new PID namespace. -/
  proc : V
  bound : List String → Bool
  remounted : List String → Bool
  root_path_ne : root_path ≠ []
  /-- What is bound does not lie in the new directory, nor does it hold it. -/
  apart : ∀ p ∈ executable_path :: dirs, ¬ root_path <+: resolved p ∧ ¬ resolved p <+: root_path

namespace SandboxMounts

variable (c : SandboxMounts V)

/-- The remount of a bind mount; its error is ignored. -/
def remount (p : List String) (target : List String) (ns : MountTable String V) :
    MountTable String V :=
  if c.remounted p then ns.remountReadOnly target else ns

/-- One pass of the loop over `dirs`. -/
def bindDirectory (ns : MountTable String V) (dir : List String) : MountTable String V :=
  let target := c.root_path ++ dir
  if c.bound dir then c.remount dir target (ns.bindAll (c.resolved dir) target) else ns

def bindExecutable (ns : MountTable String V) : MountTable String V :=
  let exe_target := c.root_path ++ ["sandbox_exec"]
  c.remount c.executable_path exe_target (ns.bind (c.resolved c.executable_path) exe_target)

/-- What a setup call does to the mounts when it succeeds. The directories are
bound just before the file for the executable is created. -/
def onMounts (ns : MountTable String V) : SetupCall → Option (MountTable String V)
  | .bindRoot => some (ns.bindAll c.root_path c.root_path)
  | .createExecutable => some (dirs.foldl c.bindDirectory ns)
  | .mountExecutable => some (c.bindExecutable ns)
  | .pivotRoot => ns.pivotRoot c.root_path (c.root_path ++ ["old_root"])
  | .umountOldRoot => ns.detach ["old_root"]
  -- `EBUSY` on a mount point
  | .rmdirOldRoot => if ns.isMountPoint ["old_root"] then none else some ns
  | .mountProc => some (ns.mount ["proc"] ⟨c.proc, [], false⟩)
  | _ => some ns

/-! ## The view of the submission -/

/-- A directory of the host in the sandbox. The remount does not reach the mounts
below it. -/
def directoryView (host : MountTable String V) (dir names : List String) : Shown String V :=
  let src := c.resolved dir
  if c.remounted dir ∧ host.mountPoint (src ++ names) <+: src then
    (host.shown (src ++ names)).asReadOnly
  else host.shown (src ++ names)

def executableView (host : MountTable String V) (names : List String) : Shown String V :=
  let executable := host.shown (c.resolved c.executable_path)
  (if c.remounted c.executable_path then executable.asReadOnly else executable).under names

/-- What the sandbox is to show: its own `/proc`, the executable, the directories
that were bound, and for the rest the new directory. -/
def view (host : MountTable String V) (p : List String) : Shown String V :=
  if ["proc"] <+: p then ⟨c.proc, p.drop 1, false⟩
  else if ["sandbox_exec"] <+: p then c.executableView host (p.drop 1)
  else
    match dirs.find? fun dir => c.bound dir ∧ dir <+: p with
    | some dir => c.directoryView host dir (p.drop dir.length)
    | none => host.shown (c.root_path ++ p)

/-! ## What the calls leave -/

section
variable {c : SandboxMounts V} {host ns : MountTable String V} {l : List (List String)}
  {dir names p : List String}

theorem target_ne (c : SandboxMounts V) (names : List String) : c.root_path ++ names ≠ [] :=
  List.append_ne_nil_of_left_ne_nil c.root_path_ne names

theorem outside (c : SandboxMounts V) (hp : p ∈ c.executable_path :: dirs) (names : List String) :
    ¬ c.root_path <+: c.resolved p ++ names := by
  intro h
  obtain ⟨hin, habove⟩ := c.apart p hp
  rcases List.prefix_or_prefix_of_prefix h (List.prefix_append _ names) with h | h
  · exact hin h
  · exact habove h

theorem resolved_ne (c : SandboxMounts V) (hp : p ∈ c.executable_path :: dirs) :
    c.resolved p ≠ [] := by
  intro h
  exact (c.apart p hp).2 (h ▸ List.nil_prefix)

/-- Outside the new directory the namespace is still that of the host. -/
structure Agrees (c : SandboxMounts V) (host ns : MountTable String V) : Prop where
  root : ns.root = host.root
  cover : ∀ p, ¬ c.root_path <+: p → ns.cover p = host.cover p

theorem Agrees.shown (h : Agrees c host ns) (hp : p ∈ c.executable_path :: dirs)
    (names : List String) :
    ns.shown (c.resolved p ++ names) = host.shown (c.resolved p ++ names) :=
  MountTable.shown_of_cover h.root (h.cover _ (c.outside hp names))

theorem Agrees.mountPoint (h : Agrees c host ns) (hp : p ∈ c.executable_path :: dirs)
    (names : List String) :
    ns.mountPoint (c.resolved p ++ names) = host.mountPoint (c.resolved p ++ names) :=
  MountTable.mountPoint_of_cover (h.cover _ (c.outside hp names))

theorem bindDirectory_eq (hdir : dir ∈ dirs) (hb : c.bound dir = true) :
    c.bindDirectory ns dir = ns.graft (c.resolved dir) (c.root_path ++ dir)
      (if c.remounted dir then (ns.shown (c.resolved dir)).asReadOnly
        else ns.shown (c.resolved dir)) := by
  have hsrc := c.resolved_ne (List.mem_cons_of_mem _ hdir)
  rw [bindDirectory, if_pos hb, remount, MountTable.bindAll]
  by_cases hr : c.remounted dir = true
  · rw [if_pos hr, if_pos hr, MountTable.remountReadOnly_graft hsrc (c.target_ne dir)]
  · rw [if_neg hr, if_neg hr]

theorem Agrees.bindDirectory (h : Agrees c host ns) (hdir : dir ∈ dirs) :
    Agrees c host (c.bindDirectory ns dir) := by
  by_cases hb : c.bound dir = true
  · rw [bindDirectory_eq hdir hb]
    refine ⟨h.root, fun p hp => ?_⟩
    rw [MountTable.cover_graft_outside, h.cover p hp]
    exact fun hle => hp ((List.prefix_append _ dir).trans hle)
  · rw [SandboxMounts.bindDirectory, if_neg hb]
    exact h

/-- A bound directory shows what the host has there; the rest of the new directory
stays as it was. -/
theorem shown_bindDirectory (h : Agrees c host ns) (hdir : dir ∈ dirs) (p : List String) :
    (c.bindDirectory ns dir).shown (c.root_path ++ p) =
      if c.bound dir ∧ dir <+: p then c.directoryView host dir (p.drop dir.length)
      else ns.shown (c.root_path ++ p) := by
  by_cases hb : c.bound dir = true
  · rw [bindDirectory_eq hdir hb]
    by_cases hp : dir <+: p
    · obtain ⟨names, rfl⟩ := hp
      have hheld : c.bound dir = true ∧ dir <+: dir ++ names := ⟨hb, List.prefix_append dir names⟩
      have hmem := List.mem_cons_of_mem c.executable_path hdir
      have htop : ns.shown (c.resolved dir) = host.shown (c.resolved dir) := by
        simpa using h.shown hmem []
      rw [if_pos hheld, List.drop_left, ← List.append_assoc,
        MountTable.shown_graft (c.resolved_ne hmem) (c.target_ne dir), h.mountPoint hmem,
        h.shown hmem, htop, directoryView]
      by_cases hsame : host.mountPoint (c.resolved dir ++ names) <+: c.resolved dir
      · rw [if_pos hsame, MountTable.shown_of_mountPoint hsame]
        by_cases hr : c.remounted dir = true
        · simp only [hr, hsame]
          rfl
        · simp only [hr, hsame]
          rfl
      · simp only [hsame, and_false, if_false]
    · have hnot : ¬ (c.bound dir = true ∧ dir <+: p) := fun hboth => hp hboth.2
      have hle : ¬ c.root_path ++ dir <+: c.root_path ++ p := by
        rwa [List.prefix_append_right_inj]
      rw [if_neg hnot]
      exact MountTable.shown_of_cover rfl (MountTable.cover_graft_outside hle)
  · have hnot : ¬ (c.bound dir = true ∧ dir <+: p) := fun hboth => hb hboth.1
    rw [if_neg hnot, bindDirectory, if_neg hb]

/-- After the loop over the directories: at most one of them holds a path. -/
theorem shown_bindDirectories (hl : ∀ dir ∈ l, dir ∈ dirs)
    (hpair : l.Pairwise fun a b => ∀ p, ¬ (a <+: p ∧ b <+: p)) (h : Agrees c host ns)
    (p : List String) :
    Agrees c host (l.foldl c.bindDirectory ns) ∧
    (l.foldl c.bindDirectory ns).shown (c.root_path ++ p) =
      match l.find? fun dir => c.bound dir ∧ dir <+: p with
      | some dir => c.directoryView host dir (p.drop dir.length)
      | none => ns.shown (c.root_path ++ p) := by
  induction l generalizing ns with
  | nil => exact ⟨h, rfl⟩
  | cons dir l ih =>
    obtain ⟨hfirst, hrest⟩ := List.pairwise_cons.1 hpair
    have hdir := hl dir List.mem_cons_self
    obtain ⟨hagrees, hshown⟩ := ih (fun d hd => hl d (List.mem_cons_of_mem _ hd)) hrest
      (h.bindDirectory hdir)
    refine ⟨hagrees, ?_⟩
    rw [List.foldl_cons, hshown, shown_bindDirectory h hdir, List.find?_cons]
    by_cases hp : c.bound dir = true ∧ dir <+: p
    · have hnone : l.find? (fun dir => c.bound dir ∧ dir <+: p) = none := by
        rw [List.find?_eq_none]
        intro d hd hboth
        exact hfirst d hd p ⟨hp.2, (of_decide_eq_true hboth).2⟩
      rw [hnone, if_pos hp, decide_eq_true hp]
    · rw [if_neg hp, decide_eq_false hp]

theorem shown_bindExecutable (h : Agrees c host ns) (p : List String) :
    (c.bindExecutable ns).shown (c.root_path ++ p) =
      if ["sandbox_exec"] <+: p then c.executableView host (p.drop 1)
      else ns.shown (c.root_path ++ p) := by
  have hexe : ns.shown (c.resolved c.executable_path) =
      host.shown (c.resolved c.executable_path) := by
    simpa using h.shown List.mem_cons_self []
  have heq : c.bindExecutable ns = ns.mount (c.root_path ++ ["sandbox_exec"])
      (if c.remounted c.executable_path then
        (host.shown (c.resolved c.executable_path)).asReadOnly
        else host.shown (c.resolved c.executable_path)) := by
    rw [bindExecutable, remount, MountTable.bind, hexe]
    by_cases hr : c.remounted c.executable_path = true
    · rw [if_pos hr, if_pos hr, MountTable.remountReadOnly_mount (c.target_ne _)]
    · rw [if_neg hr, if_neg hr]
  rw [heq]
  by_cases hp : ["sandbox_exec"] <+: p
  · obtain ⟨names, rfl⟩ := hp
    rw [if_pos (List.prefix_append _ names), ← List.append_assoc,
      MountTable.shown_mount (c.target_ne _)]
    rfl
  · have hle : ¬ c.root_path ++ ["sandbox_exec"] <+: c.root_path ++ p := by
      rwa [List.prefix_append_right_inj]
    rw [if_neg hp]
    exact MountTable.shown_of_cover rfl (MountTable.cover_mount_outside hle)

theorem pairwise_dirs : dirs.Pairwise fun a b => ∀ p, ¬ (a <+: p ∧ b <+: p) := by
  have hne : dirs.Pairwise fun a b => ¬ a <+: b ∧ ¬ b <+: a := by decide
  refine hne.imp fun {a b} hab p hp => ?_
  rcases List.prefix_or_prefix_of_prefix hp.1 hp.2 with h | h
  · exact hab.1 h
  · exact hab.2 h

/-- When all of them succeed, the submission sees what it is to see. -/
theorem shown_of_calls (h : (childASetup ++ childBSetup).foldlM c.onMounts host = some ns)
    (p : List String) : ns.shown p = c.view host p := by
  have hbound : Agrees c host (host.bindAll c.root_path c.root_path) :=
    ⟨rfl, fun _ hp => MountTable.cover_graft_outside hp⟩
  obtain ⟨hagrees, hdirs⟩ := shown_bindDirectories (l := dirs) (fun _ => id) pairwise_dirs hbound p
  simp only [childASetup, childBSetup, onMounts, List.cons_append, List.nil_append,
    List.foldlM_cons, List.foldlM_nil, Option.bind_eq_bind, Option.bind_some, Option.pure_def] at h
  obtain ⟨pivoted, hpivot, h⟩ := Option.bind_eq_some_iff.1 h
  obtain ⟨detached, hdetach, h⟩ := Option.bind_eq_some_iff.1 h
  obtain ⟨left, hleft, h⟩ := Option.bind_eq_some_iff.1 h
  cases h
  have hfree : detached.isMountPoint ["old_root"] = false ∧ left = detached := by
    split at hleft
    · cases hleft
    · rename_i hmounted
      cases hleft
      exact ⟨by simpa using hmounted, rfl⟩
  obtain ⟨hfree, rfl⟩ := hfree
  have hswitched := MountTable.shown_of_switched (by simp) hpivot hdetach hfree p
  rw [shown_bindExecutable hagrees, hdirs, MountTable.shown_bindAll_self c.root_path_ne]
    at hswitched
  unfold view
  by_cases hproc : ["proc"] <+: p
  · obtain ⟨names, rfl⟩ := hproc
    rw [if_pos (List.prefix_append _ names), MountTable.shown_mount (by simp)]
    rfl
  · rw [if_neg hproc, ← hswitched]
    exact MountTable.shown_of_cover rfl (MountTable.cover_mount_outside hproc)

end

end SandboxMounts

/-! ## The calls of a run -/

/-- The setup call that an action makes, when it succeeds. -/
def setupMade (w : World) : Act → List SetupCall
  | .childA .ok =>
    match w.childA with
    | .setup call _ => [call]
    | _ => []
  | .childB .ok =>
    match w.childB with
    | .setup call _ => [call]
    | _ => []
  | _ => []

/-- The setup calls that Child A has still to make, unless it has failed or is
done with them. -/
def ChildA.ahead : ChildA → Option (List SetupCall)
  | unborn | awaitRelease => some childASetup
  | setup call rest => some (call :: rest)
  | fork => some []
  | _ => none

def ChildB.ahead : ChildB → Option (List SetupCall)
  | setup call rest => some (call :: rest)
  | running => some []
  | _ => none

@[simp] theorem ChildA.ahead_next (calls : List SetupCall) : (next calls).ahead = some calls := by
  cases calls <;> rfl

@[simp] theorem ChildB.ahead_next (calls : List SetupCall) : (next calls).ahead = some calls := by
  cases calls <;> rfl

variable {q : Request} {acts : List Act} {w w' : World} {x : Answer} {a : Act}
  {calls : List SetupCall}

/-- What was made and what is ahead is the whole setup. -/
structure Confined (calls : List SetupCall) (w : World) : Prop where
  first : ∀ rest, w.childA.ahead = some rest → calls ++ rest = childASetup
  second : ∀ rest, w.childB.ahead = some rest → calls ++ rest = childASetup ++ childBSetup

namespace Confined

/-- A step that makes no setup call, and after which no more is ahead. -/
theorem quiet (h : Confined calls w) (hnone : setupMade w a = [])
    (hA : ∀ rest, w'.childA.ahead = some rest → w.childA.ahead = some rest)
    (hB : ∀ rest, w'.childB.ahead = some rest → w.childB.ahead = some rest) :
    Confined (calls ++ setupMade w a) w' := by
  rw [hnone, List.append_nil]
  exact ⟨fun rest hrest => h.first rest (hA rest hrest),
    fun rest hrest => h.second rest (hB rest hrest)⟩

theorem setupMade_childA (h : ∀ call rest, w.childA ≠ .setup call rest) :
    setupMade w (.childA x) = [] := by
  unfold setupMade
  split <;> simp_all

theorem setupMade_childB (h : ∀ call rest, w.childB ≠ .setup call rest) :
    setupMade w (.childB x) = [] := by
  unfold setupMade
  split <;> simp_all

theorem childA (h : Confined calls w) (hl : Lineage w) (hm : ChildA.Move w x w') :
    Confined (calls ++ setupMade w (.childA x)) w' := by
  cases hm with
  | again => exact h.quiet rfl (fun _ => id) (fun _ => id)
  | released hpc =>
    refine h.quiet (setupMade_childA (by simp [hpc])) (fun rest hrest => ?_) (fun _ => id)
    rwa [hpc, ChildA.ahead, ← ChildA.ahead_next]
  | @setupDone call rest hpc =>
    have hmade : setupMade w (.childA .ok) = [call] := by simp [setupMade, hpc]
    have hunborn : w.childB = .unborn := hl.unbornB (by rw [hpc]; rfl)
    rw [hmade]
    refine ⟨fun ahead hahead => ?_, fun ahead hahead => ?_⟩
    · rw [ChildA.ahead_next, Option.some.injEq] at hahead
      rw [List.append_assoc, ← hahead]
      exact h.first _ (by rw [hpc]; rfl)
    · simp [hunborn, ChildB.ahead] at hahead
  | setupFailed hpc => exact h.quiet rfl (fun _ => by rintro ⟨⟩) (fun _ => id)
  | forked hpc =>
    rw [setupMade_childA (by simp [hpc]), List.append_nil]
    refine ⟨fun ahead => by rintro ⟨⟩, fun ahead hahead => ?_⟩
    have hdone : calls ++ [] = childASetup := h.first [] (by rw [hpc]; rfl)
    rw [ChildB.ahead_next, Option.some.injEq] at hahead
    rw [← hahead, ← hdone, List.append_nil]
  | @toldControl _ rest hpc | @toldStatus _ rest hpc | @forwarded _ _ rest hpc =>
    refine h.quiet (setupMade_childA (by simp [hpc])) (fun ahead hahead => ?_) (fun _ => id)
    dsimp only at hahead
    split at hahead <;> cases hahead
  | abandoned hpc | reportLost hpc | forkFailed hpc | waited hpc | forwardLost hpc
  | closedStatus hpc | left hpc =>
    exact h.quiet (setupMade_childA (by simp [hpc])) (fun _ => by rintro ⟨⟩) (fun _ => id)

theorem childB (h : Confined calls w) (hl : Lineage w) (hm : ChildB.Move w x w') :
    Confined (calls ++ setupMade w (.childB x)) w' := by
  cases hm with
  | again => exact h.quiet rfl (fun _ => id) (fun _ => id)
  | @setupDone call rest hpc =>
    have hmade : setupMade w (.childB .ok) = [call] := by simp [setupMade, hpc]
    -- Child A is past its own part
    have hforked : w.childA.beforeFork = false := by
      by_contra hbefore
      simp [hl.unbornB (by simpa using hbefore)] at hpc
    rw [hmade]
    refine ⟨fun ahead hahead => ?_, fun ahead hahead => ?_⟩
    · cases hA : w.childA <;> simp_all [ChildA.ahead, ChildA.beforeFork]
    · rw [ChildB.ahead_next, Option.some.injEq] at hahead
      rw [List.append_assoc, ← hahead]
      exact h.second _ (by rw [hpc]; rfl)
  | setupFailed hpc => exact h.quiet rfl (fun _ => id) (fun _ => by rintro ⟨⟩)
  | @told _ rest hpc =>
    refine h.quiet (setupMade_childB (by simp [hpc])) (fun _ => id) (fun ahead hahead => ?_)
    dsimp only at hahead
    split at hahead <;> cases hahead
  | reportLost hpc =>
    exact h.quiet (setupMade_childB (by simp [hpc])) (fun _ => id) (fun _ => by rintro ⟨⟩)

theorem supervisor (h : Confined calls w) (hl : Lineage w) (hm : Supervisor.Move w x w') :
    Confined (calls ++ setupMade w (.supervisor x)) w' := by
  refine h.quiet rfl (fun ahead hahead => ?_) (fun ahead hahead => hm.childB ▸ hahead)
  rcases hm.phases with ⟨-, hA, -, -⟩ | ⟨hp, -, hA, -, -⟩ | ⟨-, -, hA, -⟩ | ⟨-, hA, -, -⟩
  · exact hA ▸ hahead
  · rw [hA] at hahead
    rw [hl.unborn hp]
    exact hahead
  · exact hA ▸ hahead
  · exact hA ▸ hahead

theorem keep (h : Confined calls w) (hl : Lineage w) (hm : Move w a w') :
    Confined (calls ++ setupMade w a) w' := by
  cases hm with
  | childA hm => exact h.childA hl hm
  | childB hm => exact h.childB hl hm
  | supervisor hm => exact h.supervisor hl hm
  | runner hm =>
    refine h.quiet rfl (fun ahead hahead => ?_) (fun ahead hahead => ?_)
    · exact hm.childA ▸ hahead
    · exact hm.childB ▸ hahead
  | diedA => exact h.quiet rfl (fun _ => by rintro ⟨⟩) (fun _ => id)
  | diedB | finished => exact h.quiet rfl (fun _ => id) (fun _ => by rintro ⟨⟩)
  | _ => exact h.quiet rfl (fun _ => id) (fun _ => id)

theorem init (q : Request) : Confined [] (.init q) := by
  constructor <;> simp [World.init, ChildA.ahead, ChildB.ahead]

theorem reach (h : Runs q acts w) : Confined (Machine.collect step setupMade (.init q) acts) w := by
  have hrun := Machine.run_collect (P := fun _ _ => True) (f := setupMade)
    (I := fun calls s => Lineage s ∧ Confined calls s)
    (fun calls s a t _ hs ht => ⟨hs.1.keep (moves_step ht), hs.2.keep hs.1 (moves_step ht)⟩)
    ⟨.init q, init q⟩ (Machine.along_of_forall fun _ _ _ => trivial) h
  exact hrun.2

end Confined

/-- While a submission runs, both children have made all their setup calls, in
order, and on whatever mounts the host had, these leave nothing of them in sight
but the new directory, the executable and the directories bound for it. -/
theorem submission_view (c : SandboxMounts V) (h : Runs q acts w) (hB : w.childB = .running) :
    Machine.collect step setupMade (.init q) acts = childASetup ++ childBSetup ∧
    ∀ host ns : MountTable String V,
      (Machine.collect step setupMade (.init q) acts).foldlM c.onMounts host = some ns →
      ∀ p, ns.shown p = c.view host p := by
  have hdone : Machine.collect step setupMade (.init q) acts ++ [] = childASetup ++ childBSetup :=
    (Confined.reach h).second [] (by rw [hB]; rfl)
  rw [List.append_nil] at hdone
  refine ⟨hdone, fun host ns hns => ?_⟩
  rw [hdone] at hns
  exact SandboxMounts.shown_of_calls hns

/-- Volume 0 is the host's, with another one mounted below `/usr`; the `proc` of
the sandbox is volume 2. -/
def judgeMounts : SandboxMounts Nat where
  root_path := ["tmp", "oj-sandbox-k3Qz9a"]
  executable_path := ["judge", "solution_exec"]
  resolved := id
  proc := 2
  bound := fun _ => true
  remounted := fun _ => true
  root_path_ne := by decide
  apart := by decide

/-- The mount below `/usr` stays writable. -/
theorem submission_view_boot :
    ∃ ns : MountTable String Nat,
      ns.shown ["etc", "shadow"] = ⟨0, ["tmp", "oj-sandbox-k3Qz9a", "etc", "shadow"], false⟩ ∧
      ns.shown ["usr", "bin", "cc"] = ⟨0, ["usr", "bin", "cc"], true⟩ ∧
      ns.shown ["usr", "local", "bin"] = ⟨1, ["bin"], false⟩ := by
  obtain ⟨w, hw, hB⟩ : ∃ w, Runs ⟨[], 1000, 0⟩ boot w ∧ w.childB = .running :=
    exists_run (by decide +kernel)
  obtain ⟨hmade, hview⟩ := submission_view judgeMounts hw hB
  obtain ⟨ns, hns⟩ : ∃ ns, (childASetup ++ childBSetup).foldlM judgeMounts.onMounts
      ⟨⟨0, [], false⟩, [⟨["usr", "local"], 1, [], false⟩]⟩ = some ns :=
    Option.isSome_iff_exists.1 (by decide +kernel)
  rw [← hmade] at hns
  refine ⟨ns, ?_⟩
  rw [hview _ _ hns, hview _ _ hns, hview _ _ hns]
  decide +kernel

end OnlineJudge
