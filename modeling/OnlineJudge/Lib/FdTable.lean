import Mathlib.Logic.Function.Basic
import Mathlib.Data.List.Nodup

/-!
# Descriptor tables

The open file descriptions of a process, by number. `dup2` and `close` change
one entry; a new descriptor gets the lowest number that is free.

* `FdTable`: a table with its limit;
* `FdTable.redirect`, `FdTable.closeAll`: several `dup2` in turn, and several
  `close`;
* `FdTable.redirected_iff`: when the targets of the `dup2` end up as if all were
  made at once;
* `FdTable.openFile`: a new descriptor.
-/

structure FdTable (δ : Type) where
  slot : Nat → Option δ
  limit : Nat
  closed : ∀ fd, limit ≤ fd → slot fd = none

namespace FdTable

variable {δ : Type}

/-- Nothing is open. -/
def empty (limit : Nat) : FdTable δ := ⟨fun _ => none, limit, fun _ _ => rfl⟩

def set (t : FdTable δ) (fd : Nat) (d : δ) (h : fd < t.limit) : FdTable δ where
  slot := Function.update t.slot fd (some d)
  limit := t.limit
  closed n hn := by
    rw [Function.update_of_ne (by omega)]
    exact t.closed n hn

def close (t : FdTable δ) (fd : Nat) : FdTable δ where
  slot := Function.update t.slot fd none
  limit := t.limit
  closed n hn := by
    by_cases hne : n = fd
    · rw [hne, Function.update_self]
    · rw [Function.update_of_ne hne]
      exact t.closed n hn

/-- `none` for a closed `old` or a `new` beyond the limit. -/
def dup2 (t : FdTable δ) (old new : Nat) : Option (FdTable δ) :=
  match t.slot old with
  | none => none
  | some d => if h : new < t.limit then some (t.set new d h) else none

variable {t t' : FdTable δ} {old new fd : Nat}

@[simp] theorem slot_set (d : δ) (h : fd < t.limit) :
    (t.set fd d h).slot = Function.update t.slot fd (some d) := rfl

@[simp] theorem slot_close : (t.close fd).slot = Function.update t.slot fd none := rfl

theorem slot_dup2 (h : t.dup2 old new = some t') :
    t'.slot = Function.update t.slot new (t.slot old) := by
  unfold dup2 at h
  split at h
  · cases h
  · rename_i d hd
    split at h <;> cases h
    rw [slot_set, hd]

/-! ## Redirections -/

/-- One `dup2` after the other. -/
def redirect : List (Nat × Nat) → FdTable δ → Option (FdTable δ)
  | [], t => some t
  | (old, new) :: moves, t => (t.dup2 old new).bind (redirect moves)

def closeAll (fds : List Nat) (t : FdTable δ) : FdTable δ := fds.foldl close t

theorem slot_closeAll (fds : List Nat) (t : FdTable δ) (fd : Nat) :
    (t.closeAll fds).slot fd = if fd ∈ fds then none else t.slot fd := by
  induction fds generalizing t with
  | nil => simp [closeAll]
  | cons first rest ih =>
    have hrest := ih (t.close first)
    simp only [closeAll, List.foldl_cons, List.mem_cons, slot_close, Function.update_apply]
      at hrest ⊢
    rw [hrest]
    by_cases hmem : fd ∈ rest
    · simp [hmem]
    · by_cases heq : fd = first <;> simp [hmem, heq]

/-- What is no target is left alone. -/
theorem slot_redirect_of_not_mem {moves : List (Nat × Nat)} (h : redirect moves t = some t')
    (hfd : fd ∉ moves.map Prod.snd) : t'.slot fd = t.slot fd := by
  induction moves generalizing t with
  | nil =>
    cases h
    rfl
  | cons m moves ih =>
    obtain ⟨u, hu, hrest⟩ := Option.bind_eq_some_iff.1 h
    rw [List.map_cons, List.mem_cons, not_or] at hfd
    rw [ih hrest hfd.2, slot_dup2 hu, Function.update_of_ne hfd.1]

/-- As long as no source is a target, each target gets what its source was. -/
theorem slot_redirect {moves : List (Nat × Nat)} (h : redirect moves t = some t')
    (hnew : (moves.map Prod.snd).Nodup) (hfree : ∀ m ∈ moves, m.1 ∉ moves.map Prod.snd) :
    ∀ m ∈ moves, t'.slot m.2 = t.slot m.1 := by
  induction moves generalizing t with
  | nil => nofun
  | cons first moves ih =>
    obtain ⟨u, hu, hrest⟩ := Option.bind_eq_some_iff.1 h
    rw [List.map_cons, List.nodup_cons] at hnew
    have hslot := slot_dup2 hu
    intro m hm
    rcases List.mem_cons.1 hm with rfl | hm
    · rw [slot_redirect_of_not_mem hrest hnew.1, hslot, Function.update_self]
    · have hm1 : m.1 ∉ moves.map Prod.snd ∧ m.1 ≠ first.2 := by
        have := hfree m (List.mem_cons_of_mem first hm)
        rw [List.map_cons, List.mem_cons, not_or] at this
        exact ⟨this.2, this.1⟩
      rw [ih hrest hnew.2 (fun i hi hmem =>
        hfree i (List.mem_cons_of_mem first hi) (List.mem_cons_of_mem first.2 hmem)) m hm,
        hslot, Function.update_of_ne hm1.2]

/-- Every target refers to what its source referred to, once the sources are
closed, iff no source is a target. -/
theorem redirected_iff {moves : List (Nat × Nat)} (h : redirect moves t = some t')
    (hnew : (moves.map Prod.snd).Nodup) (hopen : ∀ m ∈ moves, t.slot m.1 ≠ none) :
    (∀ m ∈ moves, (t'.closeAll (moves.map Prod.fst)).slot m.2 = t.slot m.1) ↔
      ∀ m ∈ moves, m.1 ∉ moves.map Prod.snd := by
  simp only [slot_closeAll]
  constructor
  · intro hall m hm hmem
    obtain ⟨m', hm', heq⟩ := List.mem_map.1 hmem
    -- the target of `m'` is closed as the source of `m`
    have hslot := hall m' hm'
    rw [if_pos (heq ▸ List.mem_map_of_mem hm)] at hslot
    exact hopen m' hm' hslot.symm
  · intro hfree m hm
    rw [if_neg fun hmem => ?_]
    · exact slot_redirect h hnew hfree m hm
    · obtain ⟨m', hm', heq⟩ := List.mem_map.1 hmem
      exact hfree m' hm' (heq ▸ List.mem_map_of_mem hm)

/-! ## New descriptors -/

/-- The lowest free number; `none` when there is none below the limit. -/
def lowest (t : FdTable δ) : Option Nat :=
  (List.range t.limit).find? fun fd => (t.slot fd).isNone

/-- A new descriptor for `d`. -/
def openFile (t : FdTable δ) (d : δ) : Option (Nat × FdTable δ) :=
  match h : t.lowest with
  | none => none
  | some fd => some (fd, t.set fd d (List.mem_range.1 (List.mem_of_find?_eq_some h)))

theorem openFile_spec {d : δ} (h : t.openFile d = some (fd, t')) :
    t.slot fd = none ∧ (∀ n < fd, t.slot n ≠ none) ∧
      t'.slot = Function.update t.slot fd (some d) := by
  unfold openFile at h
  split at h
  · cases h
  · rename_i n hn
    cases h
    obtain ⟨hnone, -, hlow⟩ := List.find?_range_eq_some.1 hn
    exact ⟨by simpa using hnone, fun i hi hnil => by simpa [hnil] using hlow i hi, rfl⟩

/-- Of two numbers given one after the other the second is larger, and free
before. -/
theorem openFile_openFile {t'' : FdTable δ} {d d' : δ} {fd' : Nat}
    (h : t.openFile d = some (fd, t')) (h' : t'.openFile d' = some (fd', t'')) :
    fd < fd' ∧ t.slot fd' = none := by
  obtain ⟨-, hlow, hslot⟩ := openFile_spec h
  obtain ⟨hnone, -, -⟩ := openFile_spec h'
  rw [hslot] at hnone
  have hne : fd' ≠ fd := by
    rintro rfl
    simp at hnone
  rw [Function.update_of_ne hne] at hnone
  refine ⟨?_, hnone⟩
  by_contra hge
  exact hlow fd' (by omega) hnone

end FdTable
