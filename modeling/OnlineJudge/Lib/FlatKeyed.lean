import Mathlib.Data.List.Infix

/-!
# Searching a flat keyed text

A flat keyed text has a line for each entry: a key, a blank and a value. To read a
value, one searches the text for the first place where the key and the blank
begin, and looks at what follows.

* `firstMatch`: the text from the first place on where a pattern begins;
* `firstMatch_take`: how much of the text the search needs;
* `FlatKeyed.firstMatch_render_iff`: what is found is the value of the first key
  that ends in the word;
* `FlatKeyed.found_take_iff`: the same, read from a part of the text.
-/

section
variable {α : Type} [DecidableEq α]

/-- The text from the first place on where the pattern begins. -/
def firstMatch (pattern : List α) : List α → Option (List α)
  | [] => if pattern = [] then some [] else none
  | a :: text => if pattern <+: a :: text then some (a :: text) else firstMatch pattern text

variable {pattern text rest : List α}

theorem firstMatch_suffix (h : firstMatch pattern text = some rest) : rest <:+ text := by
  induction text with
  | nil =>
    simp only [firstMatch] at h
    split at h <;> cases h
    exact List.suffix_rfl
  | cons a text ih =>
    simp only [firstMatch] at h
    split at h
    · cases h
      exact List.suffix_rfl
    · exact (ih h).trans (List.suffix_cons a text)

theorem firstMatch_eq_none_of_length (h : text.length < pattern.length) :
    firstMatch pattern text = none := by
  induction text with
  | nil =>
    have hne : pattern ≠ [] := List.ne_nil_of_length_pos h
    simp [firstMatch, hne]
  | cons a text ih =>
    have hnot : ¬ pattern <+: a :: text := by
      intro hp
      have := hp.length_le
      omega
    rw [firstMatch, if_neg hnot]
    exact ih (Nat.lt_of_succ_lt h)

/-- The search needs the text up to the end of the first match. -/
theorem firstMatch_take (hne : pattern ≠ []) (text : List α) (n : Nat) :
    firstMatch pattern (text.take n) = (firstMatch pattern text).bind fun rest =>
      if text.length - rest.length + pattern.length ≤ n then
        some (rest.take (n - (text.length - rest.length)))
      else none := by
  have hpos : 0 < pattern.length := List.length_pos_iff.2 hne
  induction text generalizing n with
  | nil => simp [firstMatch, hne]
  | cons a text ih =>
    cases n with
    | zero =>
      rw [List.take_zero, firstMatch, if_neg hne]
      symm
      rw [Option.bind_eq_none_iff]
      intro rest _
      rw [if_neg (by omega)]
    | succ n =>
      have hiff : pattern <+: a :: text.take n ↔
          pattern <+: a :: text ∧ pattern.length ≤ n + 1 := by
        rw [← List.take_succ_cons, List.prefix_take_iff]
      rw [List.take_succ_cons, firstMatch, firstMatch]
      by_cases hp : pattern <+: a :: text
      · rw [if_pos hp, Option.bind_some, Nat.sub_self, Nat.zero_add, Nat.sub_zero]
        by_cases hlen : pattern.length ≤ n + 1
        · rw [if_pos (hiff.2 ⟨hp, hlen⟩), if_pos hlen, List.take_succ_cons]
        · rw [if_neg (by rw [hiff]; simp [hlen]), if_neg hlen]
          apply firstMatch_eq_none_of_length
          rw [List.length_take]
          omega
      · rw [if_neg (by rw [hiff]; simp [hp]), if_neg hp, ih]
        cases hfound : firstMatch pattern text with
        | none => rfl
        | some rest =>
          have hle := (firstMatch_suffix hfound).length_le
          have hshift : (a :: text).length - rest.length = text.length - rest.length + 1 := by
            rw [List.length_cons]
            omega
          rw [Option.bind_some, Option.bind_some, hshift]
          refine if_congr (by omega) ?_ rfl
          rw [show n + 1 - (text.length - rest.length + 1) = n - (text.length - rest.length) by
            omega]

/-! ## Words -/

variable {word s tail : List α} {c d : α}

omit [DecidableEq α] in
/-- A word and its end begin a text only where this is its first word. -/
theorem prefix_word_iff (hs : c ∉ s) (hw : d ∉ word) :
    word ++ [c] <+: s ++ d :: tail ↔ s = word ∧ c = d := by
  induction word generalizing s with
  | nil =>
    cases s with
    | nil => simp
    | cons a s =>
      have hne : c ≠ a := fun h => hs (h ▸ List.mem_cons_self)
      simp [hne]
  | cons b word ih =>
    have hb : b ≠ d := fun h => hw (h ▸ List.mem_cons_self)
    cases s with
    | nil => simp [hb]
    | cons a s =>
      have ih := ih (s := s) (fun h => hs (List.mem_cons_of_mem a h))
        (fun h => hw (List.mem_cons_of_mem b h))
      simp only [List.cons_append, List.cons_prefix_cons, ih, List.cons.injEq, and_assoc]
      exact and_congr_left fun _ => eq_comm

/-- The search goes past a word that does not end like the pattern. -/
theorem firstMatch_word (hne : word ≠ []) (hs : c ∉ s) (hw : d ∉ word) :
    firstMatch (word ++ [c]) (s ++ d :: tail) =
      if c = d ∧ word <:+ s then some (word ++ d :: tail) else firstMatch (word ++ [c]) tail := by
  induction s with
  | nil =>
    have hnot : ¬ word ++ [c] <+: [] ++ d :: tail := by
      rw [prefix_word_iff hs hw]
      exact fun h => hne h.1.symm
    rw [List.nil_append] at hnot ⊢
    rw [firstMatch, if_neg hnot, if_neg]
    rintro ⟨-, hsuffix⟩
    exact hne (List.suffix_nil.1 hsuffix)
  | cons a s ih =>
    have hiff : word ++ [c] <+: (a :: s) ++ d :: tail ↔ a :: s = word ∧ c = d :=
      prefix_word_iff hs hw
    rw [List.cons_append] at hiff ⊢
    rw [firstMatch]
    by_cases hp : a :: s = word ∧ c = d
    · obtain ⟨rfl, rfl⟩ := hp
      rw [if_pos (hiff.2 ⟨rfl, rfl⟩), if_pos ⟨rfl, List.suffix_rfl⟩, List.cons_append]
    · rw [if_neg (fun h => hp (hiff.1 h)), ih fun h => hs (List.mem_cons_of_mem a h)]
      refine if_congr (and_congr_right fun heq => ?_) rfl rfl
      rw [List.suffix_cons_iff]
      exact (or_iff_right fun h => hp ⟨h.symm, heq⟩).symm

end

namespace FlatKeyed

/-- An entry, whose key and value hold none of the characters that divide them. -/
structure Entry {α : Type} (blank newline : α) where
  key : List α
  value : List α
  plain_key : blank ∉ key ∧ newline ∉ key
  plain_value : blank ∉ value ∧ newline ∉ value

section
variable {α : Type} {blank newline : α}

def Entry.line (e : Entry blank newline) : List α :=
  e.key ++ blank :: (e.value ++ [newline])

def render (es : List (Entry blank newline)) : List α := es.flatMap Entry.line

theorem render_cons (e : Entry blank newline) (es : List (Entry blank newline)) :
    render (e :: es) = e.key ++ blank :: (e.value ++ newline :: render es) := by
  simp [render, Entry.line]

theorem render_append (es fs : List (Entry blank newline)) :
    render (es ++ fs) = render es ++ render fs :=
  List.flatMap_append

/-- The first entry whose key ends in the word. -/
structure First (word : List α) (es before : List (Entry blank newline)) (e : Entry blank newline)
    (after : List (Entry blank newline)) : Prop where
  split : es = before ++ e :: after
  other : ∀ f ∈ before, ¬ word <:+ f.key
  ends : word <:+ e.key

variable [DecidableEq α] {word : List α} {es : List (Entry blank newline)}

theorem firstMatch_render_cons (hne : word ≠ []) (hb : blank ∉ word) (hn : newline ∉ word)
    (hdiffer : blank ≠ newline) (e : Entry blank newline) :
    firstMatch (word ++ [blank]) (render (e :: es)) =
      if word <:+ e.key then some (word ++ blank :: (e.value ++ newline :: render es))
      else firstMatch (word ++ [blank]) (render es) := by
  rw [render_cons, firstMatch_word hne e.plain_key.1 hb]
  simp only [true_and]
  refine if_congr Iff.rfl rfl ?_
  rw [firstMatch_word hne e.plain_value.1 hn, if_neg fun h => hdiffer h.1]

/-- A search for a word and the blank finds the first key that ends in the word. -/
theorem firstMatch_render_iff (hne : word ≠ []) (hb : blank ∉ word) (hn : newline ∉ word)
    (hdiffer : blank ≠ newline) {rest : List α} :
    firstMatch (word ++ [blank]) (render es) = some rest ↔
      ∃ before e after, First word es before e after ∧
        rest = word ++ blank :: (e.value ++ newline :: render after) := by
  induction es with
  | nil =>
    have hnone :
        firstMatch (word ++ [blank]) (render ([] : List (Entry blank newline))) = none := by
      simp [render, firstMatch]
    rw [hnone]
    refine ⟨by rintro ⟨⟩, ?_⟩
    rintro ⟨before, e, after, ⟨hsplit, -, -⟩, -⟩
    simp at hsplit
  | cons f es ih =>
    rw [firstMatch_render_cons hne hb hn hdiffer]
    by_cases hf : word <:+ f.key
    · rw [if_pos hf]
      constructor
      · rintro ⟨⟩
        exact ⟨[], f, es, ⟨rfl, by rintro _ ⟨⟩, hf⟩, rfl⟩
      · rintro ⟨before, e, after, ⟨hsplit, hother, -⟩, rfl⟩
        cases before with
        | nil =>
          cases hsplit
          rfl
        | cons g before =>
          cases hsplit
          exact absurd hf (hother f List.mem_cons_self)
    · rw [if_neg hf, ih]
      constructor
      · rintro ⟨before, e, after, ⟨rfl, hother, hends⟩, hrest⟩
        refine ⟨f :: before, e, after, ⟨rfl, ?_, hends⟩, hrest⟩
        simpa [hf] using hother
      · rintro ⟨before, e, after, ⟨hsplit, hother, hends⟩, hrest⟩
        cases before with
        | nil =>
          cases hsplit
          exact absurd hends hf
        | cons g before =>
          cases hsplit
          exact ⟨before, e, after, ⟨rfl, fun g hg => hother g (List.mem_cons_of_mem _ hg), hends⟩,
            hrest⟩

omit [DecidableEq α] in
theorem head?_after_word {z : α} (hz : z ≠ newline) (value tail : List α) (m : Nat) :
    (((word ++ blank :: (value ++ newline :: tail)).take m).drop (word.length + 1)).head? = some z ↔
      word.length + 2 ≤ m ∧ value.head? = some z := by
  have hdrop : (word ++ blank :: (value ++ newline :: tail)).drop (word.length + 1) =
      value ++ newline :: tail := by
    rw [← List.drop_drop, List.drop_left, List.drop_one, List.tail_cons]
  have hhead : (value ++ newline :: tail).head? = some z ↔ value.head? = some z := by
    cases value with
    | nil => simp [Ne.symm hz]
    | cons a value => rfl
  rw [List.drop_take, hdrop, List.head?_take]
  split
  · simp
    omega
  · rw [hhead]
    exact (and_iff_right (by omega)).symm

/-- What follows the match in the first `n` characters of the text is `z` iff the
first key that ends in the word has a value that begins with `z`, and the `n`
characters go as far as that. -/
theorem found_take_iff (hne : word ≠ []) (hb : blank ∉ word) (hn : newline ∉ word)
    (hdiffer : blank ≠ newline) {z : α} (hz : z ≠ newline) (n : Nat) :
    (∃ rest, firstMatch (word ++ [blank]) ((render es).take n) = some rest ∧
        (rest.drop (word.length + 1)).head? = some z) ↔
      ∃ before e after, First word es before e after ∧ e.value.head? = some z ∧
        (render before).length + e.key.length + 2 ≤ n := by
  have hpattern : word ++ [blank] ≠ [] := by simp
  have hplace {before e after} (h : First word es before e after) :
      (render es).length - (word ++ blank :: (e.value ++ newline :: render after)).length +
        word.length = (render before).length + e.key.length := by
    have hle := h.ends.length_le
    rw [h.split, render_append, render_cons]
    simp only [List.length_append, List.length_cons]
    omega
  rw [firstMatch_take hpattern]
  constructor
  · rintro ⟨rest, hfound, hhead⟩
    obtain ⟨whole, hwhole, hrest⟩ := Option.bind_eq_some_iff.1 hfound
    obtain ⟨before, e, after, hfirst, rfl⟩ :=
      (firstMatch_render_iff hne hb hn hdiffer).1 hwhole
    have hplace := hplace hfirst
    split at hrest <;> cases hrest
    obtain ⟨hlen, hvalue⟩ := (head?_after_word hz e.value _ _).1 hhead
    exact ⟨before, e, after, hfirst, hvalue, by omega⟩
  · rintro ⟨before, e, after, hfirst, hvalue, hlen⟩
    have hplace := hplace hfirst
    have hwhole := (firstMatch_render_iff hne hb hn hdiffer).2 ⟨before, e, after, hfirst, rfl⟩
    rw [hwhole, Option.bind_some]
    refine ⟨_, if_pos ?_, (head?_after_word hz e.value _ _).2 ⟨?_, hvalue⟩⟩
    · have hlength : (word ++ [blank]).length = word.length + 1 := by simp
      omega
    · omega

end

end FlatKeyed
