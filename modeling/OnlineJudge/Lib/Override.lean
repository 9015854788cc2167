import OnlineJudge.Lib.Machine

/-!
# Holders that override one shared value

A holder saves the value it finds, sets its own, and puts the saved value back
when it leaves. All holders set the same value.

* `Override`: the value, and what each holder saved, oldest holder first;
* `Intact`: the value is the one the holders set while there are any, and the
  original one when there are none;
* `always_intact_iff`: when this holds all along.
-/

structure Override (V G : Type) where
  value : V
  held : List (G × V) := []

inductive OverrideStep (G : Type)
  | enter (g : G)
  | leave (g : G)

namespace Override

variable {V G : Type}

section
variable [DecidableEq G] (v : V)

def enter (s : Override V G) (g : G) : Option (Override V G) :=
  if g ∈ s.held.map Prod.fst then none
  else some { value := v, held := s.held ++ [(g, s.value)] }

def leave (s : Override V G) (g : G) : Option (Override V G) :=
  (s.held.find? fun h => h.1 = g).map fun h =>
    { value := h.2, held := s.held.eraseP fun h => h.1 = g }

def step (s : Override V G) : OverrideStep G → Option (Override V G)
  | .enter g => s.enter v g
  | .leave g => s.leave g

def Intact (original : V) (s : Override V G) : Prop :=
  (s.held ≠ [] → s.value = v) ∧ (s.held = [] → s.value = original)

/-- The oldest holder leaves while there are others. -/
def Early (s : Override V G) : OverrideStep G → Prop
  | .enter _ => False
  | .leave g => ∃ saved other others, s.held = (g, saved) :: other :: others

/-- The oldest holder saved the original value and the others the one they all
set. -/
def Stacked (original : V) (s : Override V G) : Prop :=
  (s.held = [] ∧ s.value = original) ∨
  ∃ g others, s.held = (g, original) :: others ∧ s.value = v ∧ ∀ h ∈ others, h.2 = v

end

variable {v original : V} {s t : Override V G} {a : OverrideStep G} {acts : List (OverrideStep G)}

theorem Stacked.intact (h : Stacked v original s) : Intact v original s := by
  rcases h with ⟨hheld, hvalue⟩ | ⟨g, others, hheld, hvalue, -⟩
  · exact ⟨fun hne => absurd hheld hne, fun _ => hvalue⟩
  · exact ⟨fun _ => hvalue, fun hnil => by simp [hheld] at hnil⟩

variable [DecidableEq G]

theorem Stacked.step (h : Stacked v original s) (ha : ¬ Early s a)
    (ht : Override.step v s a = some t) : Stacked v original t := by
  cases a with
  | enter g =>
    simp only [Override.step, enter] at ht
    split at ht <;> cases ht
    rcases h with ⟨hheld, hvalue⟩ | ⟨g', others, hheld, hvalue, hothers⟩
    · exact .inr ⟨g, [], by simp [hheld, hvalue], rfl, by simp⟩
    · refine .inr ⟨g', others ++ [(g, v)], by simp [hheld, hvalue], rfl, fun h hmem => ?_⟩
      rcases List.mem_append.1 hmem with hmem | hmem
      · exact hothers h hmem
      · rw [List.mem_singleton.1 hmem]
  | leave g =>
    obtain ⟨h', hfind, rfl⟩ := Option.map_eq_some_iff.1 ht
    rcases h with ⟨hheld, -⟩ | ⟨g', others, hheld, -, hothers⟩
    · simp [hheld] at hfind
    · by_cases hg : g' = g
      · subst hg
        cases others with
        | nil =>
          simp only [hheld, List.find?_cons_of_pos, decide_true, Option.some.injEq] at hfind
          subst hfind
          exact .inl ⟨by simp [hheld], rfl⟩
        | cons other others => exact absurd ⟨original, other, others, hheld⟩ ha
      · have hskip : ¬ decide (g' = g) = true := by simpa using hg
        rw [hheld, List.find?_cons_of_neg (p := fun h : G × V => h.1 = g) hskip] at hfind
        refine .inr ⟨g', others.eraseP fun h => h.1 = g, ?_,
          hothers h' (List.mem_of_find?_eq_some hfind),
          fun h hmem => hothers h (List.mem_of_mem_eraseP hmem)⟩
        rw [hheld, List.eraseP_cons_of_neg (p := fun h : G × V => h.1 = g) hskip]

/-- With the original value itself nothing can go wrong. -/
theorem same_step (h : s.value = v ∧ ∀ h ∈ s.held, h.2 = v) (ht : Override.step v s a = some t) :
    t.value = v ∧ ∀ h ∈ t.held, h.2 = v := by
  obtain ⟨hvalue, hsaved⟩ := h
  cases a with
  | enter g =>
    simp only [Override.step, enter] at ht
    split at ht <;> cases ht
    refine ⟨rfl, fun h hmem => ?_⟩
    rcases List.mem_append.1 hmem with hmem | hmem
    · exact hsaved h hmem
    · rw [List.mem_singleton.1 hmem, hvalue]
  | leave g =>
    obtain ⟨h', hfind, rfl⟩ := Option.map_eq_some_iff.1 ht
    exact ⟨hsaved h' (List.mem_of_find?_eq_some hfind),
      fun h hmem => hsaved h (List.mem_of_mem_eraseP hmem)⟩

/-- The oldest holder restores the original value under the others. -/
theorem Stacked.not_early (h : Stacked v original s) (hne : original ≠ v)
    (hnext : ∀ t, Override.step v s a = some t → Intact v original t) : ¬ Early s a := by
  cases a with
  | enter g => exact id
  | leave g =>
    rintro ⟨saved, other, others, hheld⟩
    rcases h with ⟨hnil, -⟩ | ⟨g', others', hheld', -, -⟩
    · simp [hnil] at hheld
    · obtain ⟨heq, -⟩ := List.cons.inj (hheld.symm.trans hheld')
      cases heq
      have hleave : Override.step v s (.leave g) = some ⟨original, other :: others⟩ := by
        simp [Override.step, leave, hheld]
      exact hne ((hnext _ hleave).1 (by simp))

/-- The value is right all along iff the holders set the original one, or the
oldest holder never leaves before the others. -/
theorem always_intact_iff :
    Machine.Always (step v) (Intact v original) (⟨original, []⟩ : Override V G) acts ↔
      original = v ∨ Machine.Along (step v) (fun s a => ¬ Early s a) ⟨original, []⟩ acts := by
  constructor
  · intro hall
    by_cases hne : original = v
    · exact .inl hne
    · right
      have hstacked : Stacked v original (⟨original, []⟩ : Override V G) := .inl ⟨rfl, rfl⟩
      revert hall hstacked
      generalize (⟨original, []⟩ : Override V G) = s
      intro hall hstacked
      induction acts generalizing s with
      | nil => trivial
      | cons a acts ih =>
        have ha : ¬ Early s a := hstacked.not_early hne fun t ht => (hall.2 t ht).head
        exact ⟨ha, fun t ht => ih t (hall.2 t ht) (hstacked.step ha ht)⟩
  · rintro (rfl | hearly)
    · have hsame : Machine.Always (step original)
          (fun s : Override V G => s.value = original ∧ ∀ h ∈ s.held, h.2 = original)
          ⟨original, []⟩ acts :=
        Machine.always_keeps (P := fun _ _ => True) (fun _ _ _ _ hs ht => same_step hs ht)
          ⟨rfl, by simp⟩ (Machine.along_of_forall fun _ _ _ => trivial)
      exact hsame.mono fun s hs => ⟨fun _ => hs.1, fun _ => hs.1⟩
    · exact (Machine.always_keeps (I := Stacked v original) (fun _ _ _ ha hs ht => hs.step ha ht)
        (.inl ⟨rfl, rfl⟩) hearly).mono fun s hs => hs.intact

end Override
