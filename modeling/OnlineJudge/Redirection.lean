import OnlineJudge.Lib.FdTable
import OnlineJudge.Descriptors

/-!
# Redirection of the standard descriptors

`run` creates a socket pair and three pipes; the child that becomes the
submission moves an end of each pipe to 0, 1 and 2 with `dup2` and closes the
ends. The numbers of the ends are the lowest ones that were free.
-/

namespace OnlineJudge

variable {δ : Type}

/-! ## Creation -/

/-- `socketpair` or `pipe`, for the two descriptions. -/
def openPair (table : FdTable δ) (first second : δ) : Option ((Nat × Nat) × FdTable δ) := do
  let (fd0, table) ← table.openFile first
  let (fd1, table) ← table.openFile second
  return ((fd0, fd1), table)

/-- The arrays of `run`. -/
structure RunDescriptors where
  control_socket : Nat × Nat
  stdin_pipe : Nat × Nat
  stdout_pipe : Nat × Nat
  stderr_pipe : Nat × Nat
  deriving DecidableEq, Repr

/-- `none` when one of the four calls fails. -/
def createDescriptors (description : Descriptor → δ) (table : FdTable δ) :
    Option (RunDescriptors × FdTable δ) := do
  let (control_socket, table) ← openPair table (description .control0) (description .control1)
  let (stdin_pipe, table) ← openPair table (description .stdin0) (description .stdin1)
  let (stdout_pipe, table) ← openPair table (description .stdout0) (description .stdout1)
  let (stderr_pipe, table) ← openPair table (description .stderr0) (description .stderr1)
  return (⟨control_socket, stdin_pipe, stdout_pipe, stderr_pipe⟩, table)

/-! ## Redirection -/

def STDIN_FILENO : Nat := 0
def STDOUT_FILENO : Nat := 1
def STDERR_FILENO : Nat := 2

def EBADF : Errno := 9

/-- What `execute` reads of its context. -/
structure SandboxExecutionContext where
  stdin_fd : Nat
  stdout_fd : Nat
  stderr_fd : Nat
  status_fd : Nat
  deriving DecidableEq, Repr

/-- The context of the supervisor, once Child A has put in its own end of the
status pipe. -/
def RunDescriptors.context (created : RunDescriptors) (status_fd : Nat) :
    SandboxExecutionContext where
  stdin_fd := created.stdin_pipe.1
  stdout_fd := created.stdout_pipe.2
  stderr_fd := created.stderr_pipe.2
  status_fd := status_fd

/-- What `report_failure` writes, and what `status_fd` refers to by then. -/
structure StatusReport (δ : Type) where
  target : Option δ
  payload : SandboxSetupFailedPayload

section
variable (context : SandboxExecutionContext) (refused : SetupCall → Option Errno)

/-- One `dup2` with its error path; the kernel may refuse the call. -/
def redirectOne (call : SetupCall) (old new : Nat) (table : FdTable δ) :
    Except (StatusReport δ) (FdTable δ) :=
  match refused call, table.dup2 old new with
  | some error_code, _ =>
    .error ⟨table.slot context.status_fd, setupFailure call.stage error_code⟩
  | none, none => .error ⟨table.slot context.status_fd, setupFailure call.stage EBADF⟩
  | none, some table => .ok table

/-- The start of `Sandbox::execute`. -/
def redirectStandardIO (table : FdTable δ) : Except (StatusReport δ) (FdTable δ) := do
  let table ← redirectOne context refused .dupStdin context.stdin_fd STDIN_FILENO table
  let table ← redirectOne context refused .dupStdout context.stdout_fd STDOUT_FILENO table
  let table ← redirectOne context refused .dupStderr context.stderr_fd STDERR_FILENO table
  return ((table.close context.stdin_fd).close context.stdout_fd).close context.stderr_fd

end

/-- 0, 1 and 2 are open and refer to what the ends referred to. -/
def Redirected (context : SandboxExecutionContext) (table table' : FdTable δ) : Prop :=
  table'.slot STDIN_FILENO ≠ none ∧ table'.slot STDOUT_FILENO ≠ none ∧
    table'.slot STDERR_FILENO ≠ none ∧
    table'.slot STDIN_FILENO = table.slot context.stdin_fd ∧
    table'.slot STDOUT_FILENO = table.slot context.stdout_fd ∧
    table'.slot STDERR_FILENO = table.slot context.stderr_fd

def SandboxExecutionContext.moves (context : SandboxExecutionContext) : List (Nat × Nat) :=
  [(context.stdin_fd, STDIN_FILENO), (context.stdout_fd, STDOUT_FILENO),
    (context.stderr_fd, STDERR_FILENO)]

variable {context : SandboxExecutionContext} {refused : SetupCall → Option Errno}
  {table table' : FdTable δ}

theorem redirectOne_ok {call : SetupCall} {old new : Nat}
    (h : redirectOne context refused call old new table = .ok table') :
    table.dup2 old new = some table' := by
  unfold redirectOne at h
  split at h <;> cases h
  assumption

/-- What was not an error went through every step. -/
theorem exists_of_bind_ok {ε α β : Type} {x : Except ε α} {f : α → Except ε β} {b : β}
    (h : x >>= f = .ok b) : ∃ a, x = .ok a ∧ f a = .ok b := by
  cases x with
  | error e => cases h
  | ok a => exact ⟨a, rfl, h⟩

theorem redirectStandardIO_ok (h : redirectStandardIO context refused table = .ok table') :
    ∃ moved, FdTable.redirect context.moves table = some moved ∧
      table' = moved.closeAll (context.moves.map Prod.fst) := by
  obtain ⟨first, hfirst, h⟩ := exists_of_bind_ok h
  obtain ⟨second, hsecond, h⟩ := exists_of_bind_ok h
  obtain ⟨third, hthird, h⟩ := exists_of_bind_ok h
  cases h
  refine ⟨third, ?_, rfl⟩
  simp only [SandboxExecutionContext.moves, FdTable.redirect, redirectOne_ok hfirst,
    redirectOne_ok hsecond, redirectOne_ok hthird, Option.bind_some]

@[simp] theorem targets_moves : context.moves.map Prod.snd = [0, 1, 2] := rfl

theorem not_mem_targets_iff {fd : Nat} : fd ∉ [0, 1, 2] ↔ 2 < fd := by
  simp only [List.mem_cons, List.not_mem_nil, or_false]
  omega

/-- The numbers of the ends decide. -/
theorem redirected_standardIO_iff (hin : table.slot context.stdin_fd ≠ none)
    (hout : table.slot context.stdout_fd ≠ none) (herr : table.slot context.stderr_fd ≠ none)
    (h : redirectStandardIO context refused table = .ok table') :
    Redirected context table table' ↔
      2 < context.stdin_fd ∧ 2 < context.stdout_fd ∧ 2 < context.stderr_fd := by
  obtain ⟨moved, hmoved, rfl⟩ := redirectStandardIO_ok h
  have hopen : ∀ m ∈ context.moves, table.slot m.1 ≠ none := by
    simp [SandboxExecutionContext.moves, hin, hout, herr]
  have hiff := FdTable.redirected_iff hmoved (by simp) hopen
  simp only [targets_moves, not_mem_targets_iff] at hiff
  simp only [SandboxExecutionContext.moves, List.mem_cons, List.not_mem_nil, or_false,
    forall_eq_or_imp, forall_eq] at hiff
  rw [← hiff]
  constructor
  · rintro ⟨-, -, -, hslots⟩
    exact hslots
  · rintro ⟨h0, h1, h2⟩
    exact ⟨h0 ▸ hin, h1 ▸ hout, h2 ▸ herr, h0, h1, h2⟩

/-! ## The numbers that `run` gets -/

/-- The first number is the lowest free one, and the second the next. -/
structure Paired (table table' : FdTable δ) (first second : δ) (fds : Nat × Nat) : Prop where
  lt : fds.1 < fds.2
  free : ∀ fd, fd = fds.1 ∨ fd = fds.2 → table.slot fd = none
  taken : ∀ fd < fds.2, fd ≠ fds.1 → table.slot fd ≠ none
  slot : table'.slot = Function.update (Function.update table.slot fds.1 (some first)) fds.2
    (some second)

theorem openPair_paired {first second : δ} {fds : Nat × Nat}
    (h : openPair table first second = some (fds, table')) :
    Paired table table' first second fds := by
  obtain ⟨⟨fd0, between⟩, hfirst, h⟩ := Option.bind_eq_some_iff.1 h
  obtain ⟨⟨fd1, last⟩, hsecond, h⟩ := Option.bind_eq_some_iff.1 h
  cases h
  obtain ⟨hlt, hfree⟩ := FdTable.openFile_openFile hfirst hsecond
  obtain ⟨hfree0, -, hslot0⟩ := FdTable.openFile_spec hfirst
  obtain ⟨-, htaken, hslot1⟩ := FdTable.openFile_spec hsecond
  refine ⟨hlt, ?_, fun fd hfd hne => ?_, by rw [hslot1, hslot0]⟩
  · rintro fd (rfl | rfl) <;> assumption
  · have := htaken fd hfd
    rwa [hslot0, Function.update_of_ne hne] at this

/-- What was free stays free, beyond the two numbers. -/
theorem Paired.slot_of_ne {first second : δ} {fds : Nat × Nat}
    (h : Paired table table' first second fds) {fd : Nat} (h0 : fd ≠ fds.1) (h1 : fd ≠ fds.2) :
    table'.slot fd = table.slot fd := by
  rw [h.slot, Function.update_of_ne h1, Function.update_of_ne h0]

theorem Paired.slot_fst {first second : δ} {fds : Nat × Nat}
    (h : Paired table table' first second fds) : table'.slot fds.1 = some first := by
  rw [h.slot, Function.update_of_ne (Nat.ne_of_lt h.lt), Function.update_self]

theorem Paired.slot_snd {first second : δ} {fds : Nat × Nat}
    (h : Paired table table' first second fds) : table'.slot fds.2 = some second := by
  rw [h.slot, Function.update_self]

/-- The numbers of a later pair are larger. -/
theorem Paired.lt_of_paired {first second third fourth : δ} {fds fds' : Nat × Nat}
    {last : FdTable δ} (h : Paired table table' first second fds)
    (h' : Paired table' last third fourth fds') : fds.2 < fds'.1 := by
  have hnone := h'.free fds'.1 (.inl rfl)
  have h0 : fds'.1 ≠ fds.1 := by
    intro heq
    rw [heq, h.slot_fst] at hnone
    cases hnone
  have h1 : fds'.1 ≠ fds.2 := by
    intro heq
    rw [heq, h.slot_snd] at hnone
    cases hnone
  rw [h.slot_of_ne h0 h1] at hnone
  by_contra hge
  exact h.taken fds'.1 (by omega) h0 hnone

/-- The read end of the stdin pipe is above 2 iff 0, 1 and 2 were not all free. -/
theorem Paired.two_lt_iff {first second third fourth : δ} {fds fds' : Nat × Nat} {last : FdTable δ}
    (h : Paired table table' first second fds) (h' : Paired table' last third fourth fds') :
    2 < fds'.1 ↔ ∃ fd ≤ 2, table.slot fd ≠ none := by
  have hlt := h.lt
  have hlt' := h.lt_of_paired h'
  constructor
  · intro htwo
    by_contra hall
    have hfree : ∀ fd ≤ 2, table.slot fd = none := fun fd hfd =>
      by_contra fun hne => hall ⟨fd, hfd, hne⟩
    -- 0 and 1 are taken by the first pair, so 2 is the next one
    have h0 : fds.1 = 0 ∧ fds.2 = 1 := by
      have hfst (fd : Nat) (hfd : fd ≤ 2) (hlt : fd < fds.2) : fd = fds.1 :=
        by_contra fun hne => h.taken fd hlt hne (hfree fd hfd)
      have := hfst 0 (by omega)
      have := hfst 1 (by omega)
      omega
    refine h'.taken 2 (Nat.lt_trans htwo h'.lt) (by omega) ?_
    rw [h.slot_of_ne (by omega) (by omega)]
    exact hfree 2 (Nat.le_refl 2)
  · rintro ⟨fd, hfd, hopen⟩
    by_contra hle
    refine hopen ?_
    obtain ⟨h0, h1, h2⟩ : fds.1 = 0 ∧ fds.2 = 1 ∧ fds'.1 = 2 := by omega
    by_cases hfd2 : fd = 2
    · rw [← h.slot_of_ne (by omega) (by omega)]
      exact h'.free fd (.inl (by omega))
    · exact h.free fd (by omega)

section
variable {description : Descriptor → δ} {created : RunDescriptors} {start opened : FdTable δ}

theorem createDescriptors_paired
    (h : createDescriptors description start = some (created, opened)) :
    ∃ table1 table2 table3 : FdTable δ,
      Paired start table1 (description .control0) (description .control1)
        created.control_socket ∧
      Paired table1 table2 (description .stdin0) (description .stdin1) created.stdin_pipe ∧
      Paired table2 table3 (description .stdout0) (description .stdout1) created.stdout_pipe ∧
      Paired table3 opened (description .stderr0) (description .stderr1)
        created.stderr_pipe := by
  obtain ⟨⟨control_socket, table1⟩, h0, h⟩ := Option.bind_eq_some_iff.1 h
  obtain ⟨⟨stdin_pipe, table2⟩, h1, h⟩ := Option.bind_eq_some_iff.1 h
  obtain ⟨⟨stdout_pipe, table3⟩, h2, h⟩ := Option.bind_eq_some_iff.1 h
  obtain ⟨⟨stderr_pipe, table4⟩, h3, h⟩ := Option.bind_eq_some_iff.1 h
  cases h
  exact ⟨table1, table2, table3, openPair_paired h0, openPair_paired h1, openPair_paired h2,
    openPair_paired h3⟩

/-- The ends that the submission gets refer to their pipes; only the one for
stdin may be a standard descriptor, and is iff all of these were free. -/
theorem createDescriptors_spec (h : createDescriptors description start = some (created, opened)) :
    opened.slot created.stdin_pipe.1 = some (description .stdin0) ∧
      opened.slot created.stdout_pipe.2 = some (description .stdout1) ∧
      opened.slot created.stderr_pipe.2 = some (description .stderr1) ∧
      2 < created.stdout_pipe.2 ∧ 2 < created.stderr_pipe.2 ∧
      (2 < created.stdin_pipe.1 ↔ ∃ fd ≤ 2, start.slot fd ≠ none) := by
  obtain ⟨table1, table2, table3, h0, h1, h2, h3⟩ := createDescriptors_paired h
  have hlt0 := h0.lt
  have hlt1 := h1.lt
  have hlt2 := h2.lt
  have hlt3 := h3.lt
  have h01 := h0.lt_of_paired h1
  have h12 := h1.lt_of_paired h2
  have h23 := h2.lt_of_paired h3
  refine ⟨?_, ?_, h3.slot_snd, by omega, by omega, h0.two_lt_iff h1⟩
  · rw [h3.slot_of_ne (by omega) (by omega), h2.slot_of_ne (by omega) (by omega), h1.slot_fst]
  · rw [h3.slot_of_ne (by omega) (by omega), h2.slot_snd]

end

/-! ## When the redirection is right -/

/-- The submission of a `run` has its pipes as standard descriptors iff `run` was
called with one of these open; nothing before the redirection touches the ends. -/
theorem run_redirection_iff {description : Descriptor → δ} {created : RunDescriptors}
    {start opened : FdTable δ} {status_fd : Nat}
    (hcreate : createDescriptors description start = some (created, opened))
    (hin : table.slot created.stdin_pipe.1 = opened.slot created.stdin_pipe.1)
    (hout : table.slot created.stdout_pipe.2 = opened.slot created.stdout_pipe.2)
    (herr : table.slot created.stderr_pipe.2 = opened.slot created.stderr_pipe.2)
    (h : redirectStandardIO (created.context status_fd) refused table = .ok table') :
    (table'.slot 0 = some (description .stdin0) ∧ table'.slot 1 = some (description .stdout1) ∧
        table'.slot 2 = some (description .stderr1)) ↔
      ∃ fd ≤ 2, start.slot fd ≠ none := by
  obtain ⟨hin', hout', herr', hlt1, hlt2, hiff⟩ := createDescriptors_spec hcreate
  rw [hin'] at hin
  rw [hout'] at hout
  rw [herr'] at herr
  have hin0 : table.slot (created.context status_fd).stdin_fd ≠ none :=
    Option.ne_none_iff_exists'.2 ⟨_, hin⟩
  have hout0 : table.slot (created.context status_fd).stdout_fd ≠ none :=
    Option.ne_none_iff_exists'.2 ⟨_, hout⟩
  have herr0 : table.slot (created.context status_fd).stderr_fd ≠ none :=
    Option.ne_none_iff_exists'.2 ⟨_, herr⟩
  have hall := redirected_standardIO_iff hin0 hout0 herr0 h
  simp only [Redirected, RunDescriptors.context, STDIN_FILENO, STDOUT_FILENO, STDERR_FILENO, hin,
    hout, herr, hlt1, hlt2, and_true] at hall
  rw [← hiff, ← hall]
  constructor
  · rintro ⟨h0, h1, h2⟩
    exact ⟨by simp [h0], by simp [h1], by simp [h2], h0, h1, h2⟩
  · rintro ⟨-, -, -, hslots⟩
    exact hslots

/-- In any table the standard descriptors end up as the ends they were made from
iff no end had the number of a standard descriptor. The ends that `run` creates
have none, unless 0, 1 and 2 were all closed before. -/
theorem redirection_correct_iff (hin : table.slot context.stdin_fd ≠ none)
    (hout : table.slot context.stdout_fd ≠ none) (herr : table.slot context.stderr_fd ≠ none)
    (h : redirectStandardIO context refused table = .ok table') :
    (Redirected context table table' ↔
      2 < context.stdin_fd ∧ 2 < context.stdout_fd ∧ 2 < context.stderr_fd) ∧
    ∀ (description : Descriptor → δ) (created : RunDescriptors) (start opened : FdTable δ),
      createDescriptors description start = some (created, opened) →
      context = created.context context.status_fd →
      ((2 < context.stdin_fd ∧ 2 < context.stdout_fd ∧ 2 < context.stderr_fd) ↔
        ∃ fd ≤ 2, start.slot fd ≠ none) := by
  refine ⟨redirected_standardIO_iff hin hout herr h, ?_⟩
  intro description created start opened hcreate hcontext
  obtain ⟨-, -, -, hlt1, hlt2, hiff⟩ := createDescriptors_spec hcreate
  rw [hcontext, ← hiff]
  exact ⟨And.left, fun hlt => ⟨hlt, hlt1, hlt2⟩⟩

/-- A judge with its standard descriptors open. -/
theorem redirection_correct_iff_open :
    let table : FdTable Nat :=
      ⟨fun fd => if fd < 10 then some fd else none, 10, fun _ hfd => if_neg (Nat.not_lt.2 hfd)⟩
    ∃ table', redirectStandardIO ⟨5, 8, 9, 3⟩ (fun _ => none) table = .ok table' ∧
      Redirected ⟨5, 8, 9, 3⟩ table table' := by
  intro table
  obtain ⟨table', h⟩ :
      ∃ table', redirectStandardIO ⟨5, 8, 9, 3⟩ (fun _ => none) table = .ok table' := ⟨_, rfl⟩
  refine ⟨table', h, ?_⟩
  exact (redirection_correct_iff (by decide) (by decide) (by decide) h).1.2 (by decide)

/-- A judge that was started with 0, 1 and 2 closed: the read end of the stdin
pipe is 2, and closing it closes the stderr just installed. -/
theorem stderr_closed :
    (∃ opened table', createDescriptors id (FdTable.empty 16) =
        some (⟨(0, 1), (2, 3), (4, 5), (6, 7)⟩, opened) ∧
      redirectStandardIO ⟨2, 5, 7, 8⟩ (fun _ => none) opened = .ok table' ∧
      table'.slot 2 = none) ∧
    ¬ ∀ (context : SandboxExecutionContext) (refused : SetupCall → Option Errno)
        (table table' : FdTable Descriptor),
      [context.stdin_fd, context.stdout_fd, context.stderr_fd].Nodup →
      table.slot context.stdin_fd ≠ none → table.slot context.stdout_fd ≠ none →
      table.slot context.stderr_fd ≠ none →
      redirectStandardIO context refused table = .ok table' → Redirected context table table' := by
  have hlost : ∃ opened table', createDescriptors id (FdTable.empty 16) =
        some (⟨(0, 1), (2, 3), (4, 5), (6, 7)⟩, opened) ∧
      redirectStandardIO ⟨2, 5, 7, 8⟩ (fun _ => none) opened = .ok table' ∧
      table'.slot 2 = none := ⟨_, _, rfl, rfl, rfl⟩
  refine ⟨hlost, fun h => ?_⟩
  obtain ⟨opened, table', hcreate, hredirect, hnone⟩ := hlost
  obtain ⟨hin, hout, herr, -⟩ := createDescriptors_spec hcreate
  have hredirected := h ⟨2, 5, 7, 8⟩ (fun _ => none) opened table' (by decide) (by simp [hin])
    (by simp [hout]) (by simp [herr]) hredirect
  exact hredirected.2.2.1 hnone

end OnlineJudge
