import Mathlib.Data.List.Induction
import OnlineJudge.Lib.SharedTable
import OnlineJudge.Ownership
import OnlineJudge.Redirection

/-!
# Inherited descriptors

The judge may run several executions at a time, each in a thread of its own. They
share its descriptor table, and each supervisor is forked with a copy of all of
it. This module follows the descriptors from the judge to the submission, and
tells who has the end of a pipe open.
-/

namespace OnlineJudge

open Descriptor

/-- A descriptor that `run` opens: one of the eight, or the file that
`kill_execution_cgroup` or `is_execution_cgroup_empty` opens in its `n`-th use. -/
inductive Handle
  | pipe (d : Descriptor)
  | scratch (n : Nat)
  deriving DecidableEq

/-- What a descriptor of the judge or of one of its children refers to. `B` are
the files that the judge had before. -/
inductive OpenFile (B : Type)
  | inherited (file : B)
  | run (execution : Nat) (handle : Handle)
  | syncRead | syncWrite | statusRead | statusWrite
  deriving DecidableEq

variable {B : Type}

/-- `SOCK_CLOEXEC` for the control socket, and `FD_CLOEXEC` for the write end of
the status pipe. `flag` tells it for what the judge had before. -/
def OpenFile.closesOnExec (flag : B → Bool) : OpenFile B → Bool
  | inherited file => flag file
  | run _ (.pipe .control0) | run _ (.pipe .control1) | statusWrite => true
  | _ => false

/-! ## From the fork of the supervisor to the submission -/

section
variable (number : Descriptor → Nat) (refused : SetupCall → Option Errno) (flag : B → Bool)

/-- What the supervisor closes first. -/
def supervisorCloses : List Descriptor := [control0, stdout0, stderr0, stdin1]

/-- The supervisor, forked with the table of the judge. -/
def supervisorTable (table : FdTable (OpenFile B)) : FdTable (OpenFile B) :=
  table.closeAll (supervisorCloses.map number)

end

variable {number : Descriptor → Nat} {refused : SetupCall → Option Errno} {flag : B → Bool}
  {table table' : FdTable (OpenFile B)} {e : Nat}

/-- The eight ends have these numbers, and the standard descriptors are open. -/
structure Wired (table : FdTable (OpenFile B)) (e : Nat) (number : Descriptor → Nat) : Prop where
  ends : ∀ fd d, table.slot fd = some (.run e (.pipe d)) ↔ number d = fd
  standard : ∀ fd ≤ 2, ∃ file, table.slot fd = some (.inherited file)

namespace Wired

/-- The supervisor closes four ends of its execution, and nothing else. -/
theorem slot_supervisorTable (h : Wired table e number) (fd : Nat) (file : OpenFile B) :
    (supervisorTable number table).slot fd = some file ↔
      table.slot fd = some file ∧ ∀ d ∈ supervisorCloses, file ≠ .run e (.pipe d) := by
  rw [supervisorTable, FdTable.slot_closeAll]
  split <;> rename_i hmem
  · obtain ⟨d, hd, rfl⟩ := List.mem_map.1 hmem
    rw [(h.ends _ d).2 rfl]
    simp only [reduceCtorEq, false_iff, not_and, Option.some.injEq]
    rintro rfl hother
    exact hother d hd rfl
  · refine ⟨fun hslot => ⟨hslot, ?_⟩, And.left⟩
    rintro d hd rfl
    exact hmem (List.mem_map.2 ⟨d, hd, (h.ends fd d).1 hslot⟩)

end Wired

/-! ## The threads of the judge -/

/-- Operations on the table of the judge, by any number of threads in any order:
each execution opens and closes its eight descriptors the way a run does, and each
of its scratch files at most once. -/
structure Interleaved (ops : List (TableOp Nat Handle)) (q : Nat → Request)
    (acts : Nat → List Act) (w : Nat → World) : Prop where
  size : ∀ e, (q e).input.length < 2 ^ 63
  runs : ∀ e, Runs (q e) (acts e) (w e)
  pipes : ∀ e d, TableOp.trace e (.pipe d) ops =
    (descriptorTrace (q e) (acts e) d).filter (· ≠ .used)
  scratch : ∀ e n, ∃ stage, Lifetime.after (TableOp.trace e (.scratch n) ops) = some stage

/-- Opened and not closed. -/
def HasOpen (ops : List (TableOp Nat Handle)) (e : Nat) (handle : Handle) : Prop :=
  Lifetime.after (TableOp.trace e handle ops) = some .held

instance (ops : List (TableOp Nat Handle)) (e : Nat) (handle : Handle) :
    Decidable (HasOpen ops e handle) := inferInstanceAs (Decidable (_ = _))

/-- The judge, with what it had open before the first execution. -/
abbrev JudgeTable (B : Type) := SharedTable (OpenFile B) Nat Handle

/-- The judge after these operations. -/
def JudgeRun (start : FdTable (OpenFile B)) (number : Nat → Handle → Nat)
    (ops : List (TableOp Nat Handle)) (s : JudgeTable B) : Prop :=
  Machine.run (SharedTable.step .run) ⟨start, number⟩ ops = some s

section
variable {ops : List (TableOp Nat Handle)} {q : Nat → Request} {acts : Nat → List Act}
  {w : Nat → World} {start : FdTable (OpenFile B)} {first : Nat → Handle → Nat} {s : JudgeTable B}

theorem Interleaved.stages (h : Interleaved ops q acts w) :
    ∃ stage : Nat → Handle → Lifetime,
      (∀ e handle, Lifetime.after (TableOp.trace e handle ops) = some (stage e handle)) ∧
      ∀ e d, Stands d (w e) (stage e (.pipe d)) := by
  have hall (e : Nat) (handle : Handle) : ∃ stage,
      Lifetime.after (TableOp.trace e handle ops) = some stage ∧
        ∀ d, handle = .pipe d → Stands d (w e) stage := by
    cases handle with
    | pipe d =>
      obtain ⟨stage, hafter, hstands⟩ := stands_reach (h.runs e) (h.size e) d
      refine ⟨stage, ?_, ?_⟩
      · rw [h.pipes]
        exact Lifetime.after_filter_used hafter
      · rintro _ ⟨⟩
        exact hstands
    | scratch n =>
      obtain ⟨stage, hafter⟩ := h.scratch e n
      exact ⟨stage, hafter, by rintro _ ⟨⟩⟩
  choose stage hafter hstands using hall
  exact ⟨stage, hafter, fun e d => hstands e (.pipe d) d rfl⟩

/-- The table of the judge holds what its executions have open, each under the
number that the execution keeps, and what was open before. -/
theorem Interleaved.slots (h : Interleaved ops q acts w) (hr : JudgeRun start first ops s)
    (hstart : ∀ fd file, start.slot fd = some file → ∃ b, file = .inherited b) :
    (∀ fd e handle, s.table.slot fd = some (.run e handle) ↔
      s.number e handle = fd ∧ HasOpen ops e handle) ∧
    ∀ fd file, (∀ e handle, file ≠ .run e handle) →
      (s.table.slot fd = some file ↔ start.slot fd = some file) := by
  obtain ⟨stage, hafter, -⟩ := h.stages
  have hsound : SharedTable.Sound .run start stage s := by
    refine SharedTable.Sound.run ?_ (.init (fun fd e handle hslot => ?_) first) hr hafter
    · rintro e handle e' handle' ⟨⟩
      exact ⟨rfl, rfl⟩
    · obtain ⟨b, hb⟩ := hstart fd _ hslot
      cases hb
  refine ⟨fun fd e handle => ?_, hsound.others⟩
  rw [hsound.owned, HasOpen, hafter]
  simp

/-- When the supervisor is about to be forked. -/
theorem Interleaved.held (h : Interleaved ops q acts w) {e : Nat}
    (hpc : (w e).runner.pc = .setup 5) (d : Descriptor) : HasOpen ops e (.pipe d) := by
  obtain ⟨stage, hafter, hstands⟩ := h.stages
  have hd := hstands e d
  simp only [Stands, hpc, creation_lt d, if_true] at hd
  rw [HasOpen, hafter, hd]

theorem Interleaved.wired (h : Interleaved ops q acts w) (hr : JudgeRun start first ops s)
    (hstart : ∀ fd file, start.slot fd = some file → ∃ b, file = .inherited b)
    (hstandard : ∀ fd ≤ 2, start.slot fd ≠ none) {e : Nat}
    (hpc : (w e).runner.pc = .setup 5) :
    Wired s.table e fun d => s.number e (.pipe d) := by
  obtain ⟨hruns, hothers⟩ := h.slots hr hstart
  refine ⟨fun fd d => by simp [hruns, h.held hpc d], fun fd hfd => ?_⟩
  obtain ⟨file, hfile⟩ := Option.ne_none_iff_exists'.1 (hstandard fd hfd)
  obtain ⟨b, rfl⟩ := hstart fd file hfile
  exact ⟨b, (hothers fd _ (by rintro _ _ ⟨⟩)).2 hfile⟩

end

/-! Two executions that are both about to fork their supervisors. -/

/-- The judge with 0, 1 and 2 open. -/
def standardOnly : FdTable (OpenFile Nat) where
  slot fd := if fd < 3 then some (.inherited fd) else none
  limit := 32
  closed fd hfd := if_neg (by omega)

def opening (e first : Nat) : List (TableOp Nat Handle) :=
  Descriptor.all.zipIdx.map fun p => .acquire e (.pipe p.1) (first + p.2)

def overlapping : List (TableOp Nat Handle) := opening 0 3 ++ opening 1 11

def untilFork (e : Nat) : List Act := if e < 2 then List.replicate 5 (Act.runner .ok) else []

theorem interleaved_overlapping :
    ∃ w, Interleaved overlapping (fun _ => ⟨[], 1000, 0⟩) untilFork w ∧
      ∀ e < 2, (w e).runner.pc = .setup 5 := by
  obtain ⟨u, hu, hpc⟩ : ∃ u, Runs ⟨[], 1000, 0⟩ (untilFork 0) u ∧ u.runner.pc = .setup 5 :=
    exists_run (by decide +kernel)
  refine ⟨fun e => if e < 2 then u else .init ⟨[], 1000, 0⟩, ⟨?_, ?_, ?_, ?_⟩, ?_⟩
  · intro e
    decide
  · intro e
    by_cases he : e < 2
    · simpa [he, untilFork] using hu
    · simp [he, untilFork, Runs]
  · intro e d
    by_cases he : e < 2
    · obtain rfl | rfl : e = 0 ∨ e = 1 := by omega
      all_goals cases d <;> decide +kernel
    · have h0 : 0 ≠ e := by omega
      have h1 : 1 ≠ e := by omega
      simp [TableOp.trace, overlapping, opening, Descriptor.all, TableOp.handlings, h0, h1, he,
        untilFork, descriptorTrace, Machine.collect]
  · intro e n
    refine ⟨.unborn, ?_⟩
    simp [TableOp.trace, overlapping, opening, Descriptor.all, TableOp.handlings, Lifetime.after]
  · intro e he
    simp [he, hpc]

/-- The judge, and the executions whose processes have descriptors from it: with
each the table that its supervisor begins with. -/
structure JudgeTree (B : Type) where
  judge : JudgeTable B
  forked : List (Nat × FdTable (OpenFile B)) := []

inductive TreeOp
  | table (op : TableOp Nat Handle)
  | fork (execution : Nat)
  /-- No process of the execution has its inherited descriptors any more. -/
  | gone (execution : Nat)
  deriving DecidableEq

namespace TreeOp

def onTable : TreeOp → Option (TableOp Nat Handle)
  | .table op => some op
  | _ => none

end TreeOp

namespace JudgeTree

def step (s : JudgeTree B) : TreeOp → Option (JudgeTree B)
  | .table op => (s.judge.step .run op).map fun judge => { s with judge }
  | .fork e =>
    let number d := s.judge.number e (.pipe d)
    some { s with forked := s.forked ++ [(e, supervisorTable number s.judge.table)] }
  | .gone e => some { s with forked := s.forked.filter (·.1 ≠ e) }

/-- Some process has this end open. -/
def Open (s : JudgeTree B) (f : Nat) (d : Descriptor) : Prop :=
  (∃ fd, s.judge.table.slot fd = some (.run f (.pipe d))) ∨
    ∃ c ∈ s.forked, ∃ fd, c.2.slot fd = some (.run f (.pipe d))

variable {s s' : JudgeTree B} {ops : List TreeOp}

theorem run_judge (h : Machine.run step s ops = some s') :
    Machine.run (SharedTable.step .run) s.judge (ops.filterMap TreeOp.onTable) =
      some s'.judge := by
  induction ops generalizing s with
  | nil =>
    cases h
    rfl
  | cons op ops ih =>
    obtain ⟨t, ht, hr⟩ := Machine.run_cons.1 h
    cases op with
    | table op =>
      obtain ⟨judge, hj, rfl⟩ := Option.map_eq_some_iff.1 ht
      exact Machine.run_cons.2 ⟨judge, hj, ih hr⟩
    | fork | gone =>
      cases ht
      have hrest := ih hr
      exact hrest

/-- Its supervisor was forked with this table, and some process of it is left. -/
def Origin (judge : JudgeTable B) (ops : List TreeOp) (c : Nat × FdTable (OpenFile B)) : Prop :=
  ∃ (pre : List TreeOp) (post : List TreeOp) (t : JudgeTree B),
    ops = pre ++ TreeOp.fork c.1 :: post ∧ TreeOp.gone c.1 ∉ post ∧
      Machine.run step ⟨judge, []⟩ pre = some t ∧
      c.2 = supervisorTable (fun d => t.judge.number c.1 (.pipe d)) t.judge.table

theorem origin_append {judge : JudgeTable B} {op : TreeOp} {c : Nat × FdTable (OpenFile B)}
    (h : Machine.run step ⟨judge, []⟩ ops = some s) :
    Origin judge (ops ++ [op]) c ↔ Origin judge ops c ∧ op ≠ .gone c.1 ∨ op = .fork c.1 ∧
      c.2 = supervisorTable (fun d => s.judge.number c.1 (.pipe d)) s.judge.table := by
  constructor
  · rintro ⟨pre, post, t, heq, hgone, hrun, hc⟩
    rcases List.eq_nil_or_concat post with rfl | ⟨post, last, rfl⟩
    · obtain ⟨rfl, hop⟩ := List.append_inj' heq rfl
      cases hop
      rw [h] at hrun
      cases hrun
      exact .inr ⟨rfl, hc⟩
    · rw [List.concat_eq_append] at heq hgone
      rw [← List.cons_append, ← List.append_assoc] at heq
      obtain ⟨hops, hop⟩ := List.append_inj' heq rfl
      cases hop
      rw [List.mem_append, not_or] at hgone
      refine .inl ⟨⟨pre, post, t, hops, hgone.1, hrun, hc⟩, ?_⟩
      rintro rfl
      exact hgone.2 List.mem_cons_self
  · rintro (⟨⟨pre, post, t, rfl, hgone, hrun, hc⟩, hop⟩ | ⟨rfl, hc⟩)
    · refine ⟨pre, post ++ [op], t, by simp, ?_, hrun, hc⟩
      rw [List.mem_append, not_or]
      exact ⟨hgone, fun hmem => hop (List.mem_singleton.1 hmem).symm⟩
    · exact ⟨ops, [], s, rfl, List.not_mem_nil, h, hc⟩

/-- Who is left, and when it was forked. -/
theorem mem_forked_iff {judge : JudgeTable B} (h : Machine.run step ⟨judge, []⟩ ops = some s)
    (c : Nat × FdTable (OpenFile B)) : c ∈ s.forked ↔ Origin judge ops c := by
  induction ops using List.reverseRecOn generalizing s with
  | nil =>
    cases h
    simp [Origin]
  | append_singleton ops op ih =>
    rw [Machine.run_append] at h
    obtain ⟨t, ht, h⟩ := Option.bind_eq_some_iff.1 h
    obtain ⟨t', hstep, hnil⟩ := Machine.run_cons.1 h
    cases hnil
    rw [origin_append ht, ← ih ht]
    cases op with
    | table op =>
      obtain ⟨judge', hj, rfl⟩ := Option.map_eq_some_iff.1 hstep
      simp
    | fork e =>
      cases hstep
      simp only [List.mem_append, List.mem_singleton, Prod.ext_iff, ne_eq, reduceCtorEq,
        not_false_eq_true, and_true, TreeOp.fork.injEq]
      refine or_congr_right ⟨?_, ?_⟩
      · rintro ⟨rfl, hc⟩
        exact ⟨rfl, hc⟩
      · rintro ⟨rfl, hc⟩
        exact ⟨rfl, hc⟩
    | gone e =>
      cases hstep
      simp only [List.mem_filter, ne_eq, decide_eq_true_eq, TreeOp.gone.injEq, reduceCtorEq,
        false_and, or_false]
      exact and_congr_right fun _ => not_congr eq_comm

end JudgeTree

theorem supervisorCloses_of_mem {d : Descriptor} (hd : d ∈ [stdin1, stdout0, stderr0]) :
    d ∈ supervisorCloses := by
  revert d
  decide

/-- The end of a pipe that belongs to the run of `f` is open as long as that run
has it open, or an execution has a process left whose supervisor was forked while
it was open. -/
theorem pipe_end_open_iff {start : FdTable (OpenFile B)} {first : Nat → Handle → Nat}
    {ops : List TreeOp} {s : JudgeTree B} {d : Descriptor} (hd : d ∈ [stdin1, stdout0, stderr0])
    (f : Nat)
    (hr : Machine.run JudgeTree.step ⟨⟨start, first⟩, []⟩ ops = some s)
    (hstart : ∀ fd file, start.slot fd = some file → ∃ b, file = .inherited b)
    (hstandard : ∀ fd ≤ 2, start.slot fd ≠ none)
    (hall : ∃ q acts w, Interleaved (ops.filterMap TreeOp.onTable) q acts w)
    (hforks : ∀ (pre : List TreeOp) (e : Nat) (post : List TreeOp),
      ops = pre ++ TreeOp.fork e :: post → ∃ q acts w,
        Interleaved (pre.filterMap TreeOp.onTable) q acts w ∧ (w e).runner.pc = .setup 5) :
    s.Open f d ↔ HasOpen (ops.filterMap TreeOp.onTable) f (.pipe d) ∨
      ∃ (pre : List TreeOp) (e : Nat) (post : List TreeOp),
        ops = pre ++ TreeOp.fork e :: post ∧ TreeOp.gone e ∉ post ∧ e ≠ f ∧
          HasOpen (pre.filterMap TreeOp.onTable) f (.pipe d) := by
  obtain ⟨q, acts, w, hi⟩ := hall
  obtain ⟨hruns, -⟩ := hi.slots (JudgeTree.run_judge hr) hstart
  refine or_congr (by simp [hruns]) ?_
  constructor
  · rintro ⟨c, hc, fd, hslot⟩
    obtain ⟨pre, post, t, heq, hgone, hrun, htable⟩ := (JudgeTree.mem_forked_iff hr c).1 hc
    obtain ⟨q, acts, w, hi, hpc⟩ := hforks pre c.1 post heq
    have hjudge := JudgeTree.run_judge hrun
    rw [htable, (hi.wired hjudge hstart hstandard hpc).slot_supervisorTable] at hslot
    refine ⟨pre, c.1, post, heq, hgone, ?_, ?_⟩
    · rintro rfl
      exact hslot.2 d (supervisorCloses_of_mem hd) rfl
    · exact (((hi.slots hjudge hstart).1 fd f (.pipe d)).1 hslot.1).2
  · rintro ⟨pre, e, post, rfl, hgone, hne, hheld⟩
    obtain ⟨q, acts, w, hi, hpc⟩ := hforks pre e post rfl
    obtain ⟨t, hrun, -⟩ := Option.bind_eq_some_iff.1 (Machine.run_append ▸ hr)
    have hjudge := JudgeTree.run_judge hrun
    have hwired := hi.wired hjudge hstart hstandard hpc
    refine ⟨(e, _), (JudgeTree.mem_forked_iff hr _).2 ⟨pre, post, t, rfl, hgone, hrun, rfl⟩,
      t.judge.number f (.pipe d), (hwired.slot_supervisorTable _ _).2 ⟨?_, ?_⟩⟩
    · exact ((hi.slots hjudge hstart).1 _ f (.pipe d)).2 ⟨rfl, hheld⟩
    · rintro d' - ⟨⟩
      exact hne rfl

/-- Both supervisors are forked, and the first execution goes on to its `Ready`
and closes its stdin. -/
def crossing : List TreeOp :=
  overlapping.map .table ++ [TreeOp.fork 0, .fork 1] ++
    [control1, stdout1, stderr1, stdin0, stdin1].map fun d => .table (.release 0 (.pipe d))

theorem onTable_crossing : crossing.filterMap TreeOp.onTable = overlapping ++
    [.release 0 (.pipe control1), .release 0 (.pipe stdout1), .release 0 (.pipe stderr1),
      .release 0 (.pipe stdin0), .release 0 (.pipe stdin1)] := rfl

def untilReady (e : Nat) : List Act := if e = 0 then bootSupervisor else untilFork e

theorem interleaved_crossing :
    ∃ w, Interleaved (crossing.filterMap TreeOp.onTable) (fun _ => ⟨[], 1000, 0⟩) untilReady w := by
  obtain ⟨u, hu, -⟩ : ∃ u, Runs ⟨[], 1000, 0⟩ (untilReady 0) u ∧ u.runner.pc = .loop :=
    exists_run (by decide +kernel)
  obtain ⟨w, hw, -⟩ := interleaved_overlapping
  -- What comes after the forks is all of the first execution.
  have hlater (e : Nat) (handle : Handle) (he : 0 ≠ e) :
      TableOp.trace e handle (crossing.filterMap TreeOp.onTable) =
        TableOp.trace e handle overlapping := by
    simp [TableOp.trace, onTable_crossing, TableOp.handlings, he]
  refine ⟨fun e => if e = 0 then u else w e, hw.size, ?_, ?_, ?_⟩
  · intro e
    by_cases he : e = 0
    · simpa [he] using hu
    · simpa [he, untilReady] using hw.runs e
  · intro e d
    by_cases he : e = 0
    · subst he
      cases d <;> decide +kernel
    · rw [hlater e _ (Ne.symm he), hw.pipes, untilReady, if_neg he]
  · intro e n
    refine ⟨.unborn, ?_⟩
    simp [TableOp.trace, onTable_crossing, overlapping, opening, Descriptor.all,
      TableOp.handlings, Lifetime.after]

theorem fork_crossing {pre post : List TreeOp} {e : Nat}
    (h : crossing = pre ++ TreeOp.fork e :: post) :
    pre.filterMap TreeOp.onTable = overlapping ∧ e < 2 := by
  have hall : ∀ n < crossing.length, ∀ op ∈ crossing[n]?, op.onTable = none →
      (crossing.take n).filterMap TreeOp.onTable = overlapping ∧
        (op = TreeOp.fork 0 ∨ op = TreeOp.fork 1) := by
    decide +kernel
  obtain ⟨hpre, hfork⟩ := hall pre.length (by simp [h]) (TreeOp.fork e) (by simp [h]) rfl
  refine ⟨by simpa [h] using hpre, ?_⟩
  simp only [TreeOp.fork.injEq] at hfork
  omega

/-- The stdin pipe of the first execution can still be written to: by whatever is
left of the second. -/
theorem pipe_end_open_iff_crossing :
    ∃ s : JudgeTree Nat,
      Machine.run JudgeTree.step ⟨⟨standardOnly, fun _ _ => 0⟩, []⟩ crossing = some s ∧
        ¬ HasOpen (crossing.filterMap TreeOp.onTable) 0 (.pipe stdin1) ∧ s.Open 0 stdin1 := by
  obtain ⟨s, hs⟩ : ∃ s : JudgeTree Nat,
      Machine.run JudgeTree.step ⟨⟨standardOnly, fun _ _ => 0⟩, []⟩ crossing = some s := ⟨_, rfl⟩
  obtain ⟨w, hi⟩ := interleaved_crossing
  have hiff := pipe_end_open_iff (d := stdin1) (by decide) 0 hs (fun fd file hfile => ?_)
    (fun fd hfd => ?_) ⟨_, _, w, hi⟩ (fun pre e post heq => ?_)
  · refine ⟨s, hs, by decide +kernel, hiff.2 (.inr ?_)⟩
    exact ⟨overlapping.map .table ++ [.fork 0], 1, _, rfl, by decide, by decide,
      by decide +kernel⟩
  · simp only [standardOnly] at hfile
    split at hfile <;> cases hfile
    exact ⟨_, rfl⟩
  · simp [standardOnly, show fd < 3 by omega]
  · obtain ⟨hpre, he⟩ := fork_crossing heq
    obtain ⟨w, hw, hpc⟩ := interleaved_overlapping
    exact ⟨_, _, w, hpre ▸ hw, hpc e he⟩

end OnlineJudge
