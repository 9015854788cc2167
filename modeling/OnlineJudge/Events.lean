import Mathlib.Data.List.TakeWhile
import OnlineJudge.Lib.FlatKeyed
import OnlineJudge.Runner
import OnlineJudge.Transfer

/-!
# Reading `cgroup.events`

`Sandbox::isCgroupEmpty` and the lambda `is_execution_cgroup_empty` of `run` read
the file once, into a buffer of 256 characters, and search it for `populated `. The
kernel shows a flat keyed text there, and may give them any part of it.
-/

namespace OnlineJudge

open FlatKeyed

/-- `sizeof(buffer) - 1`. -/
def eventsCapacity : Nat := 255

def null : Char := Char.ofNat 0

/-- What `strstr` sees of the buffer. -/
def cString (buffer : List Char) : List Char := buffer.takeWhile fun c => c ≠ null

/-- `bytes_read` of the first read that is not interrupted, or `none` for -1. -/
def bytesRead : List IoAnswer → Option (Option Nat)
  | [] => none
  | .interrupted :: script => bytesRead script
  | .failed :: _ => some none
  | .nothing :: _ => some (some 0)
  | .count k :: _ => some (some (min (k + 1) eventsCapacity))

/-- `Sandbox::isCgroupEmpty` and `is_execution_cgroup_empty`, with the text of the
file, or `none` where it cannot be opened. -/
def isCgroupEmpty (file : Option (List Char)) (script : List IoAnswer) : Option Bool :=
  match file with
  | none => some false
  | some text =>
    (bytesRead script).map fun bytes_read =>
      match bytes_read with
      | none => false
      | some n => populatedIsZero (cString (text.take n))

/-! ## What they find -/

theorem strstr_eq_firstMatch (text pattern : List Char) :
    strstr text pattern = firstMatch pattern text := by
  induction text with
  | nil => simp [strstr, firstMatch]
  | cons c text ih => simp only [strstr, firstMatch, List.isPrefixOf_iff_prefix, ih]

/-- The word that they search for, with a blank behind it. -/
def populatedKey : List Char := "populated".toList

theorem populatedIsZero_iff (buffer : List Char) :
    populatedIsZero buffer = true ↔ ∃ rest, firstMatch (populatedKey ++ [' ']) buffer = some rest ∧
      (rest.drop (populatedKey.length + 1)).head? = some '0' := by
  have hpattern : "populated ".toList = populatedKey ++ [' '] := by decide
  have hlength : "populated ".length = populatedKey.length + 1 := by decide
  rw [populatedIsZero, strstr_eq_firstMatch, hpattern, hlength]
  cases firstMatch (populatedKey ++ [' ']) buffer with
  | none => simp
  | some rest => simp

theorem cString_of_not_mem {buffer : List Char} (h : null ∉ buffer) : cString buffer = buffer := by
  rw [cString, List.takeWhile_eq_self_iff]
  intro c hc
  have hne : c ≠ null := fun heq => h (heq ▸ hc)
  simpa using hne

/-- A text of entries in which no character is null. -/
def Textual (entries : List (Entry ' ' '\n')) : Prop :=
  ∀ e ∈ entries, null ∉ e.key ∧ null ∉ e.value

instance (entries : List (Entry ' ' '\n')) : Decidable (Textual entries) := by
  unfold Textual; infer_instance

theorem null_not_mem_render {entries : List (Entry ' ' '\n')} (h : Textual entries) :
    null ∉ render entries := by
  intro hmem
  obtain ⟨e, he, hline⟩ := List.mem_flatMap.1 hmem
  obtain ⟨hkey, hvalue⟩ := h e he
  have hblank : null ≠ ' ' := by decide
  have hnewline : null ≠ '\n' := by decide
  simp [Entry.line, hkey, hvalue, hblank, hnewline] at hline

theorem populatedIsZero_take_iff {entries : List (Entry ' ' '\n')} (h : Textual entries) (n : Nat) :
    populatedIsZero (cString ((render entries).take n)) = true ↔
      ∃ before e after, First populatedKey entries before e after ∧ e.value.head? = some '0' ∧
        (render before).length + e.key.length + 2 ≤ n := by
  have hnull : null ∉ (render entries).take n :=
    fun hmem => null_not_mem_render h (List.mem_of_mem_take hmem)
  rw [cString_of_not_mem hnull, populatedIsZero_iff]
  exact found_take_iff (by decide) (by decide) (by decide) (by decide) (by decide) n

/-- The cgroup is taken for empty iff the file was opened and read up to the value of
the first key that ends in `populated`, and this value begins with `0`. A short read,
or an error, never makes it empty. -/
theorem cgroup_empty_iff {entries : List (Entry ' ' '\n')} (h : Textual entries)
    (script : List IoAnswer) :
    isCgroupEmpty (some (render entries)) script = some true ↔
      ∃ n, bytesRead script = some (some n) ∧ ∃ before e after,
        First populatedKey entries before e after ∧ e.value.head? = some '0' ∧
        (render before).length + e.key.length + 2 ≤ n := by
  cases hread : bytesRead script with
  | none => simp [isCgroupEmpty, hread]
  | some bytes_read =>
    cases bytes_read with
    | none => simp [isCgroupEmpty, hread]
    | some n => simp [isCgroupEmpty, hread, populatedIsZero_take_iff h]

/-! ## What the kernel shows -/

/-- `populated` and `frozen`. -/
def eventEntries (populated : Bool) : List (Entry ' ' '\n') :=
  [⟨populatedKey, [if populated then '1' else '0'], by decide, by cases populated <;> decide⟩,
    ⟨"frozen".toList, ['0'], by decide, by decide⟩]

theorem render_eventEntries (populated : Bool) :
    render (eventEntries populated) = cgroupEvents populated := by
  cases populated <;> decide

/-- After an interrupted read, half of the file is enough. -/
theorem cgroup_empty_iff_short :
    isCgroupEmpty (some (render (eventEntries false))) [.interrupted, .count 11] = some true :=
  (cgroup_empty_iff (by decide) _).2
    ⟨12, rfl, [], _, _, ⟨rfl, by rintro _ ⟨⟩, List.suffix_rfl⟩, rfl, by decide⟩

/-- A read of at least the first line tells what the state of the system has for the
answer of the call. -/
theorem isExecutionCgroupEmpty_eq (w : World) {script : List IoAnswer} {n : Nat}
    (h : bytesRead script = some (some n)) (hn : 11 ≤ n) :
    Runner.isExecutionCgroupEmpty w .ok = isCgroupEmpty
      (if w.cgroup.present then some (cgroupEvents w.populated) else none) script := by
  have hzero : populatedIsZero (cString ((cgroupEvents w.populated).take n)) = !w.populated := by
    rw [← render_eventEntries, Bool.eq_iff_iff,
      populatedIsZero_take_iff (by cases w.populated <;> decide), Bool.not_eq_true']
    constructor
    · rintro ⟨before, e, after, ⟨hsplit, hother, -⟩, hvalue, -⟩
      cases before with
      | nil =>
        cases hsplit
        cases hp : w.populated
        · rfl
        · simp [hp] at hvalue
      | cons f before =>
        obtain ⟨rfl, -⟩ := List.cons.inj hsplit
        exact absurd List.suffix_rfl (hother _ List.mem_cons_self)
    · intro hp
      have hfirst :
          (render ([] : List (Entry ' ' '\n'))).length + populatedKey.length + 2 ≤ 11 := by
        decide
      exact ⟨[], _, _, ⟨rfl, by rintro _ ⟨⟩, List.suffix_rfl⟩, by simp [hp], hfirst.trans hn⟩
  cases hp : w.cgroup.present
  · simp [Runner.isExecutionCgroupEmpty, isCgroupEmpty, hp]
  · simp [Runner.isExecutionCgroupEmpty, isCgroupEmpty, hp, h, hzero, populatedIsZero_cgroupEvents]

end OnlineJudge
