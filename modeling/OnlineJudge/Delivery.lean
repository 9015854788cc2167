import OnlineJudge.Ownership

/-!
# Delivery of the input

What `run` writes into the stdin pipe, over every script of poll results and
write outcomes, and how the end of the input closes the pipe.
-/

namespace OnlineJudge

open Descriptor

variable {q : Request} {acts more : List Act} {w w' : World} {x : Answer} {a : Act}

namespace Runner

/-! ## One call -/

/-- `chunk_size` of the source: the subtraction is unsigned. -/
def chunkSize (r : Runner) : Nat :=
  min (sizeT ((r.input.length : Int) - r.input_offset)) ioBufferSize

/-- What the test `input_offset == input.size()` after a `write` closes. -/
def endOfInputCloses (w : World) : Answer → List Descriptor
  | .count n =>
    w.runner.advanceInputCloses
      (if w.abandoned then sizeT (w.runner.input_offset + -1) else w.runner.input_offset + n)
  | .fail e =>
    if e = EPIPE then w.runner.advanceInputCloses (sizeT (w.runner.input_offset + -1)) else []
  | _ => []

theorem endOfInputCloses_suffix (hpc : w.runner.pc = .writeStdin) :
    endOfInputCloses w x <:+ closes w x := by
  simp only [closes, hpc]
  cases x with
  | count n =>
    simp only [endOfInputCloses, brokenStdinCloses]
    split
    · exact List.suffix_cons _ _
    · exact List.suffix_refl _
  | fail e =>
    simp only [endOfInputCloses, brokenStdinCloses]
    by_cases he : e = EPIPE
    · rw [if_pos he, if_neg (by rw [he]; decide), if_pos he]
      exact List.suffix_cons _ _
    · rw [if_neg he]
      exact List.nil_suffix
  | _ => exact List.nil_suffix

theorem length_chunk {r : Runner} (hoffset : r.input_offset ≤ r.input.length)
    (hsize : r.input.length < 2 ^ 63) :
    r.chunk.length = r.chunkSize ∧ r.input_offset + r.chunkSize ≤ r.input.length := by
  have hrest : sizeT ((r.input.length : Int) - r.input_offset) =
      r.input.length - r.input_offset := by
    unfold sizeT
    omega
  simp only [chunk, chunkSize, hrest, List.length_take, List.length_drop]
  omega

/-- A call writes the next bytes, or finds the pipe broken, or does neither. -/
theorem Move.delivers (hm : Move w x w') :
    (∃ n, x = .count n ∧ w.runner.pc = .writeStdin ∧ 1 ≤ n ∧ n ≤ w.runner.chunk.length ∧
      w'.stdin = w.stdin.put (w.runner.chunk.take n) ∧ w'.runner = w.runner.wroteStdin n) ∨
    (w.runner.pc = .writeStdin ∧ w'.stdin = w.stdin ∧ w'.runner = w.runner.brokenStdin) ∨
    (w'.stdin = w.stdin ∧ w'.runner.input_offset = w.runner.input_offset ∧
      w'.runner.input = w.runner.input) := by
  cases hm with
  | wrote hpc hn => exact .inl ⟨_, rfl, hpc, hn.1, hn.2, rfl, rfl⟩
  | brokenStdin hpc => exact .inr (.inl ⟨hpc, rfl, rfl⟩)
  | got site | lost site => right; right; cases site <;> grind -linarith
  | sent site | sendFailed site => right; right; cases site <;> grind -linarith
  | waited site | waitFailed site =>
    right; right
    cases site with
    | @cleanup site => rcases site with _ | _ | _ | _ <;> grind -linarith
    | _ => grind -linarith
  | @killFailed _ site | @foundEmpty site | @foundPopulated _ site | @removeSkipped _ site
  | @removed site | @removeFailed _ site =>
    right; right
    rcases site with _ | _ | _ | _ <;> grind -linarith
  | _ => right; right; grind -linarith

end Runner

/-! ## Every run -/

/-- The pipe was given a prefix of the input, and the offset is its length while
stdin is open. -/
structure Delivering (q : Request) (w : World) : Prop extends Tracked w where
  input : w.runner.input = q.input
  delivered : w.stdin.sent <+: w.runner.input
  counted : w.runner.stdin_open = true → w.stdin.sent.length = w.runner.input_offset

/-- What a call leaves open was open before. -/
theorem stdin_open_of_step (h : Tracked w) (ht : Runner.step w x = some w')
    (hopen : w'.runner.stdin_open = true) : w.runner.stdin_open = true := by
  by_cases hn : ∃ n, w.runner.pc = .setup n
  · obtain ⟨n, hpc⟩ := hn
    have hf := h.flagged
    simp only [Flagged, hpc] at hf
    exact hf.1.2.1
  · have hfollow := (closing_step h.flagged h.offset h.size (fun n hpc => hn ⟨n, hpc⟩) ht).follows
      stdin1
    by_contra hclosed
    simp only [Bool.not_eq_true] at hclosed
    simp [isOpen, hopen, hclosed] at hfollow

namespace Delivering

theorem sent_eq (h : Delivering q w) (hopen : w.runner.stdin_open = true) :
    w.stdin.sent = w.runner.input.take w.runner.input_offset := by
  rw [← h.counted hopen]
  exact List.prefix_iff_eq_take.1 h.delivered

theorem writing (h : Delivering q w) (hpc : w.runner.pc = .writeStdin) :
    w.runner.stdin_open = true := by
  have := h.flagged
  simp only [Flagged, hpc] at this
  exact this.2

/-- The bytes of one more `write`. -/
theorem sent_put (h : Delivering q w) (hpc : w.runner.pc = .writeStdin) {n : Nat}
    (hn : n ≤ w.runner.chunk.length) :
    (w.stdin.put (w.runner.chunk.take n)).sent =
      w.runner.input.take (w.runner.input_offset + n) := by
  have hchunk : n ≤ ioBufferSize := by
    simp only [Runner.chunk, List.length_take] at hn
    omega
  rw [Channel.sent_put, h.sent_eq (h.writing hpc), Runner.chunk, List.take_take,
    Nat.min_eq_left hchunk, List.take_add]

theorem runner (h : Delivering q w) (ht : Runner.step w x = some w') : Delivering q w' := by
  have htracked := h.toTracked.runner ht
  have hm := Runner.moves ht
  have hinput := (hm.input_offset h.flagged h.offset).1
  rcases hm.delivers with ⟨n, -, hpc, -, hn, hstdin, hr⟩ | ⟨hpc, hstdin, hr⟩ | ⟨hstdin, hoffset, -⟩
  · have hsent := h.sent_put hpc hn
    refine ⟨htracked, hinput.trans h.input, ?_, fun hopen => ?_⟩
    · rw [hstdin, hsent, hinput]
      exact List.take_prefix _ _
    · have hle : w.runner.input_offset + n ≤ w.runner.input.length := by
        have := htracked.offset hopen
        rw [hr] at this
        exact this
      rw [hstdin, hsent, List.length_take, Nat.min_eq_left hle, hr]
      rfl
  · refine ⟨htracked, hinput.trans h.input, by rw [hstdin, hinput]; exact h.delivered,
      fun hopen => ?_⟩
    simp [hr, Runner.brokenStdin, Runner.advanceInput, Runner.closeStdin, Runner.go] at hopen
  · refine ⟨htracked, hinput.trans h.input, by rw [hstdin, hinput]; exact h.delivered,
      fun hopen => ?_⟩
    rw [hstdin, hoffset]
    exact h.counted (stdin_open_of_step h.toTracked ht hopen)

theorem keep (h : Delivering q w) (ht : step w a = some w') : Delivering q w' := by
  cases moves_step ht with
  | runner => exact h.runner ht
  | readStdin =>
    refine ⟨h.toTracked.keep ht, h.input, ?_, ?_⟩
    · rw [Channel.sent_take]
      exact h.delivered
    · rw [Channel.sent_take]
      exact h.counted
  | supervisor hs =>
    refine ⟨h.toTracked.keep ht, by rw [hs.runner]; exact h.input, ?_, ?_⟩ <;>
      rw [hs.stdin, hs.runner]
    · exact h.delivered
    · exact h.counted
  | childA hs | childB hs =>
    refine ⟨h.toTracked.keep ht, by rw [hs.runner]; exact h.input, ?_, ?_⟩ <;>
      rw [hs.stdin, hs.runner]
    · exact h.delivered
    · exact h.counted
  | _ => exact ⟨h.toTracked.keep ht, h.input, h.delivered, h.counted⟩

theorem init (q : Request) (hsize : q.input.length < 2 ^ 63) : Delivering q (.init q) :=
  ⟨.init q hsize, rfl, List.nil_prefix, fun _ => rfl⟩

theorem reach (h : Runs q acts w) (hsize : q.input.length < 2 ^ 63) : Delivering q w :=
  Machine.run_keeps (fun _ _ _ hw ht => hw.keep ht) (.init q hsize) h

end Delivering

/-! ### After the close -/

theorem stdin_untouched (h : Delivering q w) (hclosed : w.runner.stdin_open = false)
    (ht : step w a = some w') : descriptorHandlings stdin1 w a = [] := by
  cases a with
  | runner x =>
    have hn : ∀ n, w.runner.pc ≠ .setup n := by
      intro n hpc
      have hf := h.flagged
      simp only [Flagged, hpc] at hf
      exact absurd (hf.1.2.1.symm.trans hclosed) (by decide)
    have hcreates : (Runner.creates w x).count stdin1 = 0 := by
      unfold Runner.creates
      split
      · rename_i n hpc
        exact absurd hpc (hn n)
      · rfl
    have htouches : (Runner.touches w).count stdin1 = 0 := by
      by_contra htouched
      exact absurd ((isOpen_of_touched h.flagged htouched).symm.trans hclosed) (by decide)
    have hcloses := (closing_step h.flagged h.offset h.size hn ht).follows stdin1
    simp only [isOpen, hclosed, Bool.toNat_false] at hcloses
    have hnone : (Runner.closes w x).count stdin1 = 0 := by omega
    simp [descriptorHandlings, hcreates, htouches, hnone]
  | _ => rfl

theorem stdin_shut_step (h : Delivering q w) (hclosed : w.runner.stdin_open = false)
    (ht : step w a = some w') :
    w'.runner.stdin_open = false ∧ w'.stdin.sent = w.stdin.sent := by
  cases moves_step ht with
  | runner hr =>
    refine ⟨?_, ?_⟩
    · by_contra hopen
      rw [Bool.not_eq_false] at hopen
      exact absurd (hclosed.symm.trans (stdin_open_of_step h.toTracked ht hopen)) (by decide)
    · rcases hr.delivers with ⟨n, -, hpc, -⟩ | ⟨-, hstdin, -⟩ | ⟨hstdin, -⟩
      · exact absurd ((h.writing hpc).symm.trans hclosed) (by decide)
      · rw [hstdin]
      · rw [hstdin]
  | supervisor hs => exact ⟨hs.runner ▸ hclosed, by rw [hs.stdin]⟩
  | childA hs | childB hs => exact ⟨hs.runner ▸ hclosed, by rw [hs.stdin]⟩
  | readStdin => exact ⟨hclosed, Channel.sent_take _ _⟩
  | _ => exact ⟨hclosed, rfl⟩

/-- Nothing more is written and the end is not closed again. -/
theorem stdin_shut_run (h : Delivering q w) (hclosed : w.runner.stdin_open = false)
    (hr : Machine.run step w more = some w') :
    w'.runner.stdin_open = false ∧ w'.stdin.sent = w.stdin.sent ∧
      Machine.collect step (descriptorHandlings stdin1) w more = [] := by
  have hshut := Machine.run_collect (P := fun _ _ => True) (f := descriptorHandlings stdin1)
    (I := fun trace s => trace = [] ∧ Delivering q s ∧ s.runner.stdin_open = false ∧
      s.stdin.sent = w.stdin.sent)
    (fun trace s a t _ ⟨htrace, hs, hopen, hsent⟩ ht => by
      obtain ⟨hopen', hsent'⟩ := stdin_shut_step hs hopen ht
      exact ⟨by rw [htrace, stdin_untouched hs hopen ht]; rfl, hs.keep ht, hopen',
        hsent'.trans hsent⟩)
    (l := []) ⟨rfl, h, hclosed, rfl⟩ (Machine.along_of_forall fun _ _ _ => trivial) hr
  exact ⟨hshut.2.2.1, hshut.2.2.2, hshut.1⟩

/-! ### The end of the input -/

/-- A failed `write` is not taken for the end of the input. -/
theorem brokenInputCloses (h : Delivering q w) (hpc : w.runner.pc = .writeStdin) :
    w.runner.advanceInputCloses (sizeT (w.runner.input_offset + -1)) = [] := by
  have hoffset := h.offset (h.writing hpc)
  have hsize := h.size
  refine if_neg ?_
  unfold sizeT
  omega

/-- A `write` that moves bytes meets the end exactly when they are the last. -/
theorem advanceInputCloses_iff (h : Delivering q w) (hpc : w.runner.pc = .writeStdin) {n : Nat}
    (hn : 1 ≤ n ∧ n ≤ w.runner.chunk.length) :
    w.runner.advanceInputCloses (w.runner.input_offset + n) = [stdin1] ↔
      w.stdin.sent ≠ q.input ∧ (w.stdin.put (w.runner.chunk.take n)).sent = q.input := by
  have hopen := h.writing hpc
  have hend : w.runner.input_offset + n ≤ w.runner.input.length := by
    have hle := hn.2
    simp only [Runner.chunk, List.length_take, List.length_drop] at hle
    omega
  have hcounted := h.counted hopen
  rw [h.sent_put hpc hn.2, ← h.input, Runner.advanceInputCloses]
  constructor
  · intro hclose
    have heq : w.runner.input_offset + n = w.runner.input.length := by
      by_contra hne
      rw [if_neg hne] at hclose
      cases hclose
    refine ⟨fun hsent => ?_, by rw [heq, List.take_length]⟩
    rw [hsent] at hcounted
    omega
  · rintro ⟨-, hsent⟩
    refine if_pos ?_
    have := congrArg List.length hsent
    rw [List.length_take] at this
    omega

theorem endOfInputCloses_iff (h : Delivering q w) (hpc : w.runner.pc = .writeStdin)
    (ht : Runner.step w x = some w') :
    Runner.endOfInputCloses w x = [stdin1] ↔ w.stdin.sent ≠ q.input ∧ w'.stdin.sent = q.input := by
  have hsame (hs : w'.stdin = w.stdin) (hc : Runner.endOfInputCloses w x = []) :
      Runner.endOfInputCloses w x = [stdin1] ↔
        w.stdin.sent ≠ q.input ∧ w'.stdin.sent = q.input := by
    rw [hc, hs]
    exact iff_of_false (by simp) fun hdone => hdone.1 hdone.2
  have hbroken := brokenInputCloses h hpc
  simp only [Runner.step, hpc] at ht
  cases x <;> simp only [Runner.writeStdin, reduceCtorEq] at ht
  · refine hsame ?_ ?_
    · split at ht
      · cases ht; rfl
      · split at ht <;> cases ht <;> rfl
    · simp only [Runner.endOfInputCloses]
      split
      · exact hbroken
      · rfl
  · split at ht <;> rename_i ha
    · cases ht
      refine hsame rfl ?_
      rw [Runner.endOfInputCloses, if_pos ha]
      exact hbroken
    · split at ht <;> cases ht
      rename_i hn
      rw [Runner.endOfInputCloses, if_neg ha]
      exact advanceInputCloses_iff h hpc hn

/-- The input is delivered in order, each byte once, out of the input only. Once
stdin is shut nothing touches it again, and the comparison of the offset shuts it
exactly in the call that delivers the last byte. -/
theorem input_delivery (hsize : q.input.length < 2 ^ 63) (h : Runs q acts w) :
    w.stdin.sent <+: q.input ∧
    (w.runner.stdin_open = true → w.stdin.sent = q.input.take w.runner.input_offset) ∧
    (w.runner.pc = .writeStdin → w.runner.chunk.length = w.runner.chunkSize ∧
      w.runner.input_offset + w.runner.chunkSize ≤ q.input.length) ∧
    (w.runner.stdin_open = false → ∀ more w', Machine.run step w more = some w' →
      w'.runner.stdin_open = false ∧ w'.stdin.sent = w.stdin.sent ∧
        Machine.collect step (descriptorHandlings stdin1) w more = []) ∧
    (w.runner.pc = .writeStdin → ∀ x w', Runner.step w x = some w' →
      Runner.endOfInputCloses w x <:+ Runner.closes w x ∧
      (Runner.endOfInputCloses w x = [stdin1] ↔
        w.stdin.sent ≠ q.input ∧ w'.stdin.sent = q.input)) := by
  have hd := Delivering.reach h hsize
  refine ⟨hd.input ▸ hd.delivered, fun hopen => hd.input ▸ hd.sent_eq hopen, fun hpc => ?_,
    fun hclosed _ _ hr => stdin_shut_run hd hclosed hr,
    fun hpc _ _ ht => ⟨Runner.endOfInputCloses_suffix hpc, endOfInputCloses_iff hd hpc ht⟩⟩
  rw [← hd.input]
  exact Runner.length_chunk (hd.offset (hd.writing hpc)) hd.size

/-- The input is one byte, and the first `write` delivers it. -/
theorem input_delivery_byte :
    ∃ w w', Runs ⟨[7], 1000, 0⟩
        (boot ++ [.runner .ok, .runner (.events { stdinOut := true })]) w ∧
      Runner.step w (.count 1) = some w' ∧ Runner.endOfInputCloses w (.count 1) = [stdin1] ∧
      w'.stdin.sent = [7] := by
  obtain ⟨w, hw, hpc, hstep⟩ : ∃ w, Runs ⟨[7], 1000, 0⟩
      (boot ++ [Act.runner .ok, .runner (.events { stdinOut := true })]) w ∧
      w.runner.pc = .writeStdin ∧ (Runner.step w (.count 1)).any (fun w' =>
        w.stdin.sent = [] ∧ w'.stdin.sent = [7]) = true := exists_run (by decide +kernel)
  cases ht : Runner.step w (.count 1) with
  | none => simp [ht] at hstep
  | some w' =>
    simp only [ht, Option.any_some, Bool.decide_and, Bool.and_eq_true, decide_eq_true_eq] at hstep
    obtain ⟨hsent, hsent'⟩ := hstep
    have hend := ((input_delivery (by decide) hw).2.2.2.2 hpc (.count 1) w' ht).2.2
      ⟨by rw [hsent]; decide, hsent'⟩
    exact ⟨w, w', hw, ht, hend, hsent'⟩

end OnlineJudge
