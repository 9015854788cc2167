import OnlineJudge.Lib.Words

/-!
# The transfer loops

`read_all` and `write_all` of `common/sandbox_protocol.cpp`, driven by a script
of what the kernel answers to one `read` or `write` after another. The bytes a
reader will ever be given are its `source`; a script that runs out leaves the
loop blocked.
-/

namespace OnlineJudge

/-- The answer to one `read` or `write` of `n > 0` bytes. -/
inductive IoAnswer
  /-- `min (k + 1) n` bytes were moved. -/
  | count (k : Nat)
  /-- -1 with `EINTR`. -/
  | interrupted
  /-- -1 with another `errno`. -/
  | failed
  /-- 0: end of file for a `read`. -/
  | nothing
  deriving DecidableEq, Repr

/-- How a transfer loop ended: what it returned, the bytes it has in its
buffer, the bytes still to come and the answers not used up. -/
structure Transfer where
  ok : Bool
  got : List Byte
  source : List Byte
  script : List IoAnswer
  deriving DecidableEq, Repr

/-- The loop of `read_all` once `got` is in the buffer. -/
def readAll (size : Nat) (got source : List Byte) (script : List IoAnswer) : Option Transfer :=
  if size ≤ got.length then some ⟨true, got, source, script⟩
  else match script with
    | [] => none
    | .interrupted :: rest => readAll size got source rest
    | .failed :: rest => some ⟨false, got, source, rest⟩
    | .nothing :: rest => some ⟨false, got, source, rest⟩
    | .count k :: rest =>
      let n := min (k + 1) (size - got.length)
      -- fewer bytes than answered: the source has nothing left to deliver
      if source.length < n then none
      else readAll size (got ++ source.take n) (source.drop n) rest

/-- The kernel neither fails nor ends the stream. -/
def Steady (script : List IoAnswer) : Prop := ∀ a ∈ script, a ≠ .failed ∧ a ≠ .nothing

/-- How many calls of a script move bytes. -/
def moves (script : List IoAnswer) : Nat := script.countP fun a => a matches .count _

theorem Steady.tail {a : IoAnswer} {script : List IoAnswer} (h : Steady (a :: script)) :
    Steady script := fun b hb => h b (List.mem_cons_of_mem a hb)

/-- Without a failure the loop only stops with the whole record. -/
theorem readAll_steady {size : Nat} {script : List IoAnswer} (hs : Steady script)
    {got source : List Byte} {t : Transfer} (hg : got.length ≤ size)
    (h : readAll size got source script = some t) :
    t.ok = true ∧ t.got = got ++ source.take (size - got.length) ∧
      t.source = source.drop (size - got.length) ∧ size - got.length ≤ source.length := by
  induction script generalizing got source with
  | nil =>
    unfold readAll at h
    split at h
    · rename_i hle
      cases h
      simp [show size - got.length = 0 by omega]
    · cases h
  | cons a rest ih =>
    unfold readAll at h
    split at h
    · rename_i hle
      cases h
      simp [show size - got.length = 0 by omega]
    · rename_i hlt
      cases a with
      | interrupted => exact ih hs.tail hg h
      | failed => exact absurd rfl (hs .failed List.mem_cons_self).1
      | nothing => exact absurd rfl (hs .nothing List.mem_cons_self).2
      | count k =>
        simp only at h
        split at h
        · cases h
        · rename_i hsrc
          generalize hn : min (k + 1) (size - got.length) = n at h hsrc
          have hlen : (got ++ source.take n).length = got.length + n := by
            simp only [List.length_append, List.length_take]
            omega
          obtain ⟨hok, hgot, hleft, hle⟩ := ih hs.tail (by omega) h
          simp only [hlen, List.length_drop] at hgot hleft hle
          have hadd : size - got.length = n + (size - (got.length + n)) := by omega
          refine ⟨hok, ?_, ?_, by omega⟩
          · rw [hgot, hadd, List.take_add, List.append_assoc]
          · rw [hleft, hadd, List.drop_drop]

/-- Each call moves at least one byte, so `size` calls that are neither
interrupted nor failed are enough. -/
theorem readAll_terminates {size : Nat} {script : List IoAnswer} (hs : Steady script)
    {got source : List Byte} (hsrc : size - got.length ≤ source.length)
    (hm : size - got.length ≤ moves script) : ∃ t, readAll size got source script = some t := by
  induction script generalizing got source with
  | nil =>
    unfold readAll
    rw [if_pos (by simp [moves] at hm; omega)]
    exact ⟨_, rfl⟩
  | cons a rest ih =>
    unfold readAll
    split
    · exact ⟨_, rfl⟩
    · cases a with
      | interrupted => exact ih hs.tail hsrc (by simpa [moves] using hm)
      | failed => exact absurd rfl (hs .failed List.mem_cons_self).1
      | nothing => exact absurd rfl (hs .nothing List.mem_cons_self).2
      | count k =>
        simp only
        generalize hn : min (k + 1) (size - got.length) = n
        have hm' : size - got.length ≤ moves rest + 1 := by simpa [moves] using hm
        rw [if_neg (by omega)]
        apply ih hs.tail
        · simp only [List.length_append, List.length_take, List.length_drop]
          omega
        · simp only [List.length_append, List.length_take]
          omega

/-! ## Streams that end -/

/-- The kernel may answer so to a reader that asks for `sizes` in turn, when
`left` more bytes will come: it moves only bytes that are there, does not fail,
and says 0 only at the end of the stream. -/
def Answerable : List Nat → Nat → List IoAnswer → Prop
  | size :: sizes, left, .count k :: script =>
    min (k + 1) size ≤ left ∧
      Answerable (if size ≤ k + 1 then sizes else (size - (k + 1)) :: sizes)
        (left - min (k + 1) size) script
  | size :: sizes, left, .interrupted :: script => Answerable (size :: sizes) left script
  | _ :: _, left, .nothing :: _ => left = 0
  | _ :: _, _, .failed :: _ => False
  | [], _, _ => True
  | _ :: _, _, [] => True

/-- How many calls of a script are not interrupted. -/
def answers (script : List IoAnswer) : Nat := script.countP fun a => a ≠ .interrupted

/-- A `read_all` gets its record whole, or the stream ends first. Each answer
but an interruption moves a byte or tells the end. -/
theorem readAll_answerable (size : Nat) (got source : List Byte) {sizes : List Nat}
    {script : List IoAnswer} (hlt : got.length < size)
    (ha : Answerable ((size - got.length) :: sizes) source.length script)
    (hm : min (size - got.length) (source.length + 1) ≤ answers script) :
    (size - got.length ≤ source.length ∧ ∃ script',
      readAll size got source script =
        some ⟨true, got ++ source.take (size - got.length), source.drop (size - got.length),
          script'⟩ ∧
      Answerable sizes (source.length - (size - got.length)) script' ∧
      answers script ≤ answers script' + (size - got.length)) ∨
    (source.length < size - got.length ∧ ∃ got' script',
      readAll size got source script = some ⟨false, got', [], script'⟩) := by
  induction script generalizing got source with
  | nil =>
    simp only [answers, List.countP_nil] at hm
    omega
  | cons a rest ih =>
    unfold readAll
    rw [if_neg (by omega)]
    cases a with
    | interrupted =>
      have hanswers : answers (.interrupted :: rest) = answers rest := by simp [answers]
      rw [hanswers] at hm ⊢
      exact ih got source hlt ha hm
    | failed => exact ha.elim
    | nothing =>
      have hnil : source = [] := List.eq_nil_of_length_eq_zero ha
      subst hnil
      exact .inr ⟨by simp; omega, _, _, rfl⟩
    | count k =>
      obtain ⟨hle, hrest⟩ := ha
      have hanswers : answers (.count k :: rest) = answers rest + 1 := by simp [answers]
      simp only
      rw [if_neg (by omega)]
      by_cases hk : size - got.length ≤ k + 1
      · -- the call that completes the record
        rw [if_pos hk, Nat.min_eq_right hk] at hrest
        rw [Nat.min_eq_right hk] at hle ⊢
        refine .inl ⟨hle, rest, ?_, hrest, by omega⟩
        unfold readAll
        rw [if_pos (by simp only [List.length_append, List.length_take]; omega)]
      · rw [if_neg hk, Nat.min_eq_left (by omega)] at hrest
        rw [Nat.min_eq_left (by omega)] at hle ⊢
        have hlen : (got ++ source.take (k + 1)).length = got.length + (k + 1) := by
          simp only [List.length_append, List.length_take]
          omega
        have hdrop : (source.drop (k + 1)).length = source.length - (k + 1) := List.length_drop
        have hsize : size - got.length - (k + 1) = size - (got.length + (k + 1)) := by omega
        rcases ih (got ++ source.take (k + 1)) (source.drop (k + 1)) (by omega)
          (by rwa [hlen, hdrop, ← hsize]) (by omega) with
          ⟨hle', script', hread, hans, hmore⟩ | ⟨hlt', got', script', hread⟩
        · rw [hlen] at hle' hread hans hmore
          rw [hdrop] at hle' hans
          have hsplit : size - got.length = (k + 1) + (size - (got.length + (k + 1))) := by omega
          refine .inl ⟨by omega, script', ?_, ?_, by omega⟩
          · rw [hread, hsplit, List.take_add (i := k + 1), List.append_assoc, List.drop_drop]
          · rwa [show source.length - (size - got.length) =
              source.length - (k + 1) - (size - (got.length + (k + 1))) by omega]
        · rw [hlen, hdrop] at hlt'
          exact .inr ⟨by omega, got', script', hread⟩

/-- The same for a stream of which `n` bytes come: a record in front of it is
read whole, or the stream ends in it. -/
theorem readAll_front (size : Nat) (got front rest : List Byte) (n : Nat) {sizes : List Nat}
    {script : List IoAnswer} (hsize : size = got.length + front.length) (hne : front ≠ [])
    (ha : Answerable (front.length :: sizes) ((front ++ rest).take n).length script)
    (hm : min front.length (((front ++ rest).take n).length + 1) ≤ answers script) :
    (front.length ≤ n ∧ ∃ script',
      readAll size got ((front ++ rest).take n) script =
        some ⟨true, got ++ front, rest.take (n - front.length), script'⟩ ∧
      Answerable sizes (rest.take (n - front.length)).length script' ∧
      answers script ≤ answers script' + front.length) ∨
    (n < front.length ∧ ∃ got' script',
      readAll size got ((front ++ rest).take n) script = some ⟨false, got', [], script'⟩) := by
  have hpos : 0 < front.length := List.length_pos_iff.2 hne
  have hsub : size - got.length = front.length := by omega
  have hlen : ((front ++ rest).take n).length = min n (front.length + rest.length) := by simp
  rcases readAll_answerable size got ((front ++ rest).take n) (by omega) (by rwa [hsub])
    (by rwa [hsub]) with
    ⟨hle, script', hread, hans, hmore⟩ | ⟨hlt, got', script', hread⟩
  · rw [hsub] at hle hread hans hmore
    have hn : front.length ≤ n := by omega
    have hdrop : ((front ++ rest).take n).drop front.length = rest.take (n - front.length) := by
      rw [List.drop_take, List.drop_left]
    have htake : ((front ++ rest).take n).take front.length = front := by
      rw [List.take_take, Nat.min_eq_left hn, List.take_left]
    rw [htake, hdrop] at hread
    rw [← List.length_drop, hdrop] at hans
    exact .inl ⟨hn, script', hread, hans, hmore⟩
  · exact .inr ⟨by omega, got', script', hread⟩

/-! ## Writing -/

/-- The loop of `write_all` with `source` left to write; `got` are the bytes
that reached the descriptor. -/
def writeAll (got source : List Byte) (script : List IoAnswer) : Option Transfer :=
  if source = [] then some ⟨true, got, source, script⟩
  else match script with
    | [] => none
    | .interrupted :: rest => writeAll got source rest
    | .failed :: rest => some ⟨false, got, source, rest⟩
    | .nothing :: rest => some ⟨false, got, source, rest⟩
    | .count k :: rest =>
      let n := min (k + 1) source.length
      writeAll (got ++ source.take n) (source.drop n) rest

/-- Without a failure everything reaches the descriptor, in order, in at most as
many calls that move bytes as there are bytes. -/
theorem writeAll_steady (got source : List Byte) {script : List IoAnswer} (hs : Steady script)
    (hm : source.length ≤ moves script) :
    ∃ script', writeAll got source script = some ⟨true, got ++ source, [], script'⟩ ∧
      Steady script' ∧ moves script ≤ moves script' + source.length := by
  induction script generalizing got source with
  | nil =>
    have hnil : source = [] := List.eq_nil_of_length_eq_zero (by simpa [moves] using hm)
    subst hnil
    exact ⟨[], by simp [writeAll], hs, by simp⟩
  | cons a rest ih =>
    unfold writeAll
    by_cases hnil : source = []
    · subst hnil
      rw [if_pos rfl]
      exact ⟨a :: rest, by simp, hs, by simp⟩
    · rw [if_neg hnil]
      cases a with
      | interrupted =>
        obtain ⟨script', hw, hs', hm'⟩ := ih got source hs.tail (by simpa [moves] using hm)
        exact ⟨script', hw, hs', by simpa [moves] using hm'⟩
      | failed => exact absurd rfl (hs .failed List.mem_cons_self).1
      | nothing => exact absurd rfl (hs .nothing List.mem_cons_self).2
      | count k =>
        have hpos : 0 < source.length := List.length_pos_iff.2 hnil
        have hmoves : moves (.count k :: rest) = moves rest + 1 := by simp [moves]
        have hdrop : (source.drop (min (k + 1) source.length)).length =
            source.length - min (k + 1) source.length := List.length_drop
        obtain ⟨script', hw, hs', hm'⟩ := ih (got ++ source.take (min (k + 1) source.length))
          (source.drop (min (k + 1) source.length)) hs.tail (by omega)
        refine ⟨script', ?_, hs', by omega⟩
        simp only
        rw [hw, List.append_assoc, List.take_append_drop]

end OnlineJudge
