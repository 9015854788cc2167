import OnlineJudge.Transfer

/-!
# The transfer loops in memory

`Transfer` has the loops of `read_all` and `write_all` on lists. Here they run as
written: on a buffer with an offset, one call after the other, with every call on
record. `readAllLoop_eq` leads back to the lists.
-/

namespace OnlineJudge

/-! ## Buffers and descriptors -/

/-- The buffer once `bytes` are stored at `data + offset`. -/
def store (buffer : List Byte) (offset : Nat) (bytes : List Byte) : List Byte :=
  buffer.take offset ++ bytes ++ buffer.drop (offset + bytes.length)

/-- The `count` bytes at `data + offset`. -/
def load (buffer : List Byte) (offset count : Nat) : List Byte := (buffer.drop offset).take count

/-- The next `count` bytes of a descriptor that was read up to `position`. -/
def incoming (source : Nat → Byte) (position count : Nat) : List Byte :=
  (List.range count).map fun i => source (position + i)

variable {source : Nat → Byte}

@[simp] theorem length_incoming (position count : Nat) :
    (incoming source position count).length = count := by simp [incoming]

theorem incoming_add (position m n : Nat) :
    incoming source position (m + n) =
      incoming source position m ++ incoming source (position + m) n := by
  simp [incoming, List.range_add, Nat.add_assoc]

theorem store_append (front rest bytes : List Byte) :
    store (front ++ rest) front.length bytes = front ++ bytes ++ rest.drop bytes.length := by
  simp [store, List.drop_append]

/-! ## The loop -/

/-- A call on `data + offset` for at most `count` bytes. -/
structure IoRequest where
  offset : Nat
  count : Nat
  deriving DecidableEq, Repr

/-- The variables of a loop: `total_read` or `total_written`, what its calls
change, and the calls it has made. -/
structure TransferLoop (σ : Type) where
  total : Nat := 0
  changed : σ
  requests : List IoRequest := []
  deriving DecidableEq, Repr

namespace TransferLoop

variable {σ : Type} (move : Nat → Nat → σ → σ) (size : Nat) (s : TransferLoop σ)

/-- The call for what is missing is made. -/
def ask : TransferLoop σ := { s with requests := s.requests ++ [⟨s.total, size - s.total⟩] }

/-- The call moved `n` bytes. -/
def advance (n : Nat) : TransferLoop σ :=
  { s with total := s.total + n, changed := move s.total n s.changed }

/-- The loop from here on; `none` when the script ends before it. A call that
moves `n` bytes at an offset has the effect `move`. -/
def run (s : TransferLoop σ) (script : List IoAnswer) : Option (Bool × TransferLoop σ) :=
  if size ≤ s.total then some (true, s)
  else match script with
    | [] => none
    | .interrupted :: rest => run (s.ask size) rest
    | .failed :: _ => some (false, s.ask size)
    | .nothing :: _ => some (false, s.ask size)
    | .count k :: rest => run ((s.ask size).advance move (min (k + 1) (size - s.total))) rest

end TransferLoop

/-- What `read` changes. -/
structure Reading where
  buffer : List Byte
  position : Nat := 0
  deriving DecidableEq, Repr

def readAllLoop (source : Nat → Byte) (size : Nat) :
    TransferLoop Reading → List IoAnswer → Option (Bool × TransferLoop Reading) :=
  TransferLoop.run (fun total_read bytes_read s =>
    { buffer := store s.buffer total_read (incoming source s.position bytes_read)
      position := s.position + bytes_read }) size

/-- `sink` are the bytes that reached the descriptor. -/
def writeAllLoop (buffer : List Byte) (size : Nat) :
    TransferLoop (List Byte) → List IoAnswer → Option (Bool × TransferLoop (List Byte)) :=
  TransferLoop.run (fun total_written bytes_written sink =>
    sink ++ load buffer total_written bytes_written) size

example :
    readAllLoop (fun i => BitVec.ofNat 8 (65 + i)) 3 { changed := { buffer := [0, 0, 0, 9] } }
        [.interrupted, .count 1, .nothing] =
      some (false,
        { total := 2, changed := ⟨[65, 66, 0, 9], 2⟩, requests := [⟨0, 3⟩, ⟨0, 3⟩, ⟨2, 1⟩] }) := by
  decide

/-! ## What a script lets through -/

/-- How many bytes the kernel is ready to move before it fails or says 0. -/
def offered : List IoAnswer → Nat
  | .count k :: rest => k + 1 + offered rest
  | .interrupted :: rest => offered rest
  | .failed :: _ => 0
  | .nothing :: _ => 0
  | [] => 0

/-- The script fails or says 0 somewhere. -/
def Stops (script : List IoAnswer) : Prop := .failed ∈ script ∨ .nothing ∈ script

@[simp] theorem stops_interrupted {script : List IoAnswer} :
    Stops (.interrupted :: script) ↔ Stops script := by simp [Stops]

@[simp] theorem stops_count {k : Nat} {script : List IoAnswer} :
    Stops (.count k :: script) ↔ Stops script := by simp [Stops]

/-- Each call that moves bytes moves one at least. -/
theorem moves_le_offered {script : List IoAnswer} (hs : ¬ Stops script) :
    moves script ≤ offered script := by
  induction script with
  | nil => exact Nat.le_refl 0
  | cons a rest ih =>
    cases a with
    | count k =>
      have hmoves : moves (.count k :: rest) = moves rest + 1 := by simp [moves]
      have := ih (by simpa using hs)
      rw [hmoves, offered]
      omega
    | interrupted =>
      have hmoves : moves (.interrupted :: rest) = moves rest := by simp [moves]
      rw [hmoves, offered]
      exact ih (by simpa using hs)
    | failed | nothing => exact absurd (by simp [Stops]) hs

/-- Answers that are interrupted finitely often stop the loop, or let through as
much as it wants. -/
theorem exists_settled {answers : Nat → IoAnswer} (h : ∃ N, ∀ n, N ≤ n → answers n ≠ .interrupted)
    (size : Nat) : ∃ N, ∀ n, N ≤ n →
      Stops ((List.range n).map answers) ∨ size ≤ offered ((List.range n).map answers) := by
  obtain ⟨N, hN⟩ := h
  refine ⟨N + size, fun n hn => or_iff_not_imp_left.2 fun hs => ?_⟩
  refine Nat.le_trans ?_ (moves_le_offered hs)
  have hcount : ∀ i, N ≤ i → i < n → ∃ k, answers i = .count k := by
    intro i hi hlt
    have hmem : answers i ∈ (List.range n).map answers :=
      List.mem_map_of_mem (List.mem_range.2 hlt)
    cases ha : answers i with
    | count k => exact ⟨k, rfl⟩
    | interrupted => exact absurd ha (hN i hi)
    | failed => exact absurd (.inl (ha ▸ hmem)) hs
    | nothing => exact absurd (.inr (ha ▸ hmem)) hs
  obtain ⟨m, rfl⟩ := Nat.exists_eq_add_of_le (Nat.le_trans (Nat.le_add_right N size) hn)
  have hall : moves ((List.range m).map (answers ∘ (N + ·))) = m := by
    rw [moves, List.countP_eq_length.2, List.length_map, List.length_range]
    intro a ha
    obtain ⟨i, hi, rfl⟩ := List.mem_map.1 ha
    have hlt := List.mem_range.1 hi
    obtain ⟨k, hk⟩ := hcount (N + i) (Nat.le_add_right N i) (by omega)
    simp [hk]
  have happend : moves ((List.range N).map answers ++ (List.range m).map (answers ∘ (N + ·))) =
      moves ((List.range N).map answers) + m := by
    rw [moves, List.countP_append, ← moves, ← moves, hall]
  rw [List.range_add, List.map_append, List.map_map]
  exact Nat.le_trans (by omega) (Nat.le_of_eq happend.symm)

/-! ## The loop is exact -/

namespace TransferLoop

variable {σ : Type} {move : Nat → Nat → σ → σ} {size : Nat} {I : Nat → σ → Prop}
  {s : TransferLoop σ} {script : List IoAnswer}

/-- No call asked for a byte beyond `size`, or for none, and what the calls
changed is right for `total` bytes. -/
structure Exact (size : Nat) (I : Nat → σ → Prop) (s : TransferLoop σ) : Prop where
  total_le : s.total ≤ size
  changed : I s.total s.changed
  requests : ∀ r ∈ s.requests, 0 < r.count ∧ r.offset + r.count = size

theorem Exact.ask (h : Exact size I s) (hlt : s.total < size) : Exact size I (s.ask size) := by
  refine ⟨h.total_le, h.changed, fun r hr => ?_⟩
  rcases List.mem_append.1 hr with hr | hr
  · exact h.requests r hr
  · rw [List.mem_singleton] at hr
    subst hr
    exact ⟨Nat.sub_pos_of_lt hlt, Nat.add_sub_cancel' h.total_le⟩

theorem Exact.advance
    (hmove : ∀ total n changed, I total changed → I (total + n) (move total n changed))
    (h : Exact size I s) {n : Nat} (hn : s.total + n ≤ size) : Exact size I (s.advance move n) :=
  ⟨hn, hmove s.total n s.changed h.changed, h.requests⟩

/-- The loop ends with as many bytes as are offered, at most `size`. -/
theorem run_exact
    (hmove : ∀ total n changed, I total changed → I (total + n) (move total n changed))
    (h : Exact size I s) (hsettled : Stops script ∨ size ≤ s.total + offered script) :
    ∃ t, run move size s script = some (decide (size ≤ s.total + offered script), t) ∧
      Exact size I t ∧ t.total = min size (s.total + offered script) := by
  have hle := h.total_le
  induction script generalizing s with
  | nil =>
    have hsize : size ≤ s.total := by simpa [Stops, offered] using hsettled
    refine ⟨s, ?_, h, by rw [offered]; omega⟩
    simp [run, offered, hsize]
  | cons a rest ih =>
    unfold run
    by_cases hsize : size ≤ s.total
    · rw [if_pos hsize]
      exact ⟨s, by simp; omega, h, by omega⟩
    · rw [if_neg hsize]
      have hask := h.ask (Nat.lt_of_not_le hsize)
      cases a with
      | interrupted => exact ih hask (by simpa [offered, TransferLoop.ask] using hsettled) hle
      | failed | nothing =>
        refine ⟨_, ?_, hask, ?_⟩
        · simp [offered, hsize]
        · simp [offered, TransferLoop.ask]
          omega
      | count k =>
        generalize hn : min (k + 1) (size - s.total) = n
        have hnext : ((s.ask size).advance move n).total = s.total + n := rfl
        have hiff : size ≤ s.total + n + offered rest ↔
            size ≤ s.total + (k + 1 + offered rest) := by omega
        have hmin : min size (s.total + n + offered rest) =
            min size (s.total + (k + 1 + offered rest)) := by omega
        have hadvance := hask.advance hmove (show s.total + n ≤ size by omega)
        rw [stops_count, offered, ← hiff] at hsettled
        obtain ⟨t, hrun, ht, htotal⟩ := ih hadvance (hnext ▸ hsettled) hadvance.total_le
        rw [hnext, decide_eq_decide.2 hiff] at hrun
        rw [hnext, hmin] at htotal
        exact ⟨t, by simpa only [hn, offered] using hrun, ht, htotal⟩

end TransferLoop

/-- What `read_all` keeps: its buffer starts with the bytes that came. -/
def Filled (source : Nat → Byte) (buffer : List Byte) (total_read : Nat) (s : Reading) : Prop :=
  s.buffer = incoming source 0 total_read ++ buffer.drop total_read ∧ s.position = total_read

theorem Filled.read {buffer : List Byte} {total_read : Nat} {s : Reading}
    (h : Filled source buffer total_read s) (n : Nat) :
    Filled source buffer (total_read + n)
      { buffer := store s.buffer total_read (incoming source s.position n)
        position := s.position + n } := by
  obtain ⟨hbuffer, hposition⟩ := h
  have hstore := store_append (incoming source 0 total_read) (buffer.drop total_read)
    (incoming source total_read n)
  rw [length_incoming, length_incoming, List.drop_drop] at hstore
  refine ⟨?_, by rw [hposition]⟩
  rw [hbuffer, hposition, hstore, incoming_add, Nat.zero_add]

/-- What `write_all` keeps: what reached the descriptor is a prefix of its buffer. -/
def Accepted (buffer sink : List Byte) (total_written : Nat) (s : List Byte) : Prop :=
  s = sink ++ buffer.take total_written

theorem Accepted.write {buffer sink s : List Byte} {total_written : Nat}
    (h : Accepted buffer sink total_written s) (n : Nat) :
    Accepted buffer sink (total_written + n) (s ++ load buffer total_written n) := by
  rw [Accepted, h, load, List.append_assoc, List.take_add]

/-- However the kernel answers, as long as it interrupts finitely often: the loops
end, return true iff `size` bytes were offered before a failure or a 0, moved as
many of the first `size` bytes as were offered, in order, and asked for no byte
beyond them. -/
theorem transfer_loops_exact {answers : Nat → IoAnswer}
    (hfinite : ∃ N, ∀ n, N ≤ n → answers n ≠ .interrupted) (size : Nat) :
    ∃ N, ∀ n, N ≤ n →
      let script := (List.range n).map answers
      let moved := min size (offered script)
      (∀ (source : Nat → Byte) (buffer : List Byte), ∃ s,
        readAllLoop source size { changed := { buffer } } script =
            some (decide (size ≤ offered script), s) ∧
          s.total = moved ∧ s.changed.position = moved ∧
          s.changed.buffer = incoming source 0 moved ++ buffer.drop moved ∧
          ∀ r ∈ s.requests, 0 < r.count ∧ r.offset + r.count = size) ∧
      ∀ buffer sink : List Byte, ∃ s,
        writeAllLoop buffer size { changed := sink } script =
            some (decide (size ≤ offered script), s) ∧
          s.total = moved ∧ s.changed = sink ++ buffer.take moved ∧
          ∀ r ∈ s.requests, 0 < r.count ∧ r.offset + r.count = size := by
  obtain ⟨N, hN⟩ := exists_settled hfinite size
  refine ⟨N, fun n hn => ⟨fun source buffer => ?_, fun buffer sink => ?_⟩⟩
  · have hstart : TransferLoop.Exact size (Filled source buffer) { changed := { buffer } } :=
      ⟨Nat.zero_le size, ⟨rfl, rfl⟩, nofun⟩
    obtain ⟨s, hrun, hs, htotal⟩ := TransferLoop.run_exact
      (I := Filled source buffer) (fun _ n _ h => h.read n) hstart (by simpa using hN n hn)
    simp only [Nat.zero_add] at hrun htotal
    obtain ⟨hbuffer, hposition⟩ := hs.changed
    rw [htotal] at hbuffer hposition
    exact ⟨s, hrun, htotal, hposition, hbuffer, hs.requests⟩
  · have hstart : TransferLoop.Exact size (Accepted buffer sink) { changed := sink } :=
      ⟨Nat.zero_le size, by simp [Accepted], nofun⟩
    obtain ⟨s, hrun, hs, htotal⟩ := TransferLoop.run_exact
      (I := Accepted buffer sink) (fun _ n _ h => h.write n) hstart (by simpa using hN n hn)
    simp only [Nat.zero_add] at hrun htotal
    have hsink := hs.changed
    rw [htotal] at hsink
    exact ⟨s, hrun, htotal, hsink, hs.requests⟩

/-- Two calls of which the first one is interrupted. -/
theorem transfer_loops_exact_interrupted :
    ∃ N, ∀ n, N ≤ n →
      let script := (List.range n).map fun i => if i = 0 then IoAnswer.interrupted else .count 0
      let moved := min 2 (offered script)
      (∀ (source : Nat → Byte) (buffer : List Byte), ∃ s,
        readAllLoop source 2 { changed := { buffer } } script =
            some (decide (2 ≤ offered script), s) ∧
          s.total = moved ∧ s.changed.position = moved ∧
          s.changed.buffer = incoming source 0 moved ++ buffer.drop moved ∧
          ∀ r ∈ s.requests, 0 < r.count ∧ r.offset + r.count = 2) ∧
      ∀ buffer sink : List Byte, ∃ s,
        writeAllLoop buffer 2 { changed := sink } script =
            some (decide (2 ≤ offered script), s) ∧
          s.total = moved ∧ s.changed = sink ++ buffer.take moved ∧
          ∀ r ∈ s.requests, 0 < r.count ∧ r.offset + r.count = 2 :=
  transfer_loops_exact ⟨1, fun n hn => by
    rw [if_neg (by omega)]
    rintro ⟨⟩⟩ 2

/-! ## The loops on lists -/

theorem Filled.take {buffer : List Byte} {total_read : Nat} {s : Reading}
    (h : Filled source buffer total_read s) :
    s.buffer.take total_read = incoming source 0 total_read := by
  rw [h.1, List.take_left' (length_incoming 0 total_read)]

/-- `readAll` is `readAllLoop` without the offsets, for a source that has `m ≥ size`
bytes. -/
theorem readAllLoop_eq {size m : Nat} (hm : size ≤ m) (source : Nat → Byte) (buffer : List Byte)
    (script : List IoAnswer) :
    (readAll size [] (incoming source 0 m) script).map (fun t => (t.ok, t.got, t.source)) =
      (readAllLoop source size { changed := { buffer } } script).map fun (ok, s) =>
        (ok, s.changed.buffer.take s.total, incoming source s.changed.position (m - s.total)) := by
  suffices hgen : ∀ s : TransferLoop Reading, TransferLoop.Exact size (Filled source buffer) s →
      (readAll size (incoming source 0 s.total) (incoming source s.total (m - s.total)) script).map
          (fun t => (t.ok, t.got, t.source)) =
        (readAllLoop source size s script).map fun (ok, s) =>
          (ok, s.changed.buffer.take s.total, incoming source s.changed.position (m - s.total)) from
    hgen { changed := { buffer } } ⟨Nat.zero_le size, ⟨rfl, rfl⟩, nofun⟩
  induction script with
  | nil =>
    intro s hs
    unfold readAll readAllLoop TransferLoop.run
    rw [length_incoming]
    split
    · simp [hs.changed.take, hs.changed.2]
    · rfl
  | cons a rest ih =>
    intro s hs
    unfold readAll readAllLoop TransferLoop.run
    rw [length_incoming]
    split
    · simp [hs.changed.take, hs.changed.2]
    · rename_i hlt
      have hask := hs.ask (Nat.lt_of_not_le hlt)
      cases a with
      | interrupted => exact ih _ hask
      | failed | nothing => simp [TransferLoop.ask, hs.changed.take, hs.changed.2]
      | count k =>
        generalize hn : min (k + 1) (size - s.total) = n
        have hle : s.total + n ≤ size := by omega
        have hadvance := hask.advance (fun _ n _ h => h.read n) hle
        have hnext := ih _ hadvance
        have hsplit : incoming source s.total (m - s.total) =
            incoming source s.total n ++ incoming source (s.total + n) (m - (s.total + n)) := by
          rw [← incoming_add]
          congr 1
          omega
        have hgot : incoming source 0 (s.total + n) =
            incoming source 0 s.total ++ incoming source s.total n := by
          rw [incoming_add, Nat.zero_add]
        simp only [hn]
        rw [if_neg (by rw [length_incoming]; omega), hsplit,
          List.take_left' (length_incoming s.total n), List.drop_left' (length_incoming s.total n),
          ← hgot]
        exact hnext

/-- `writeAll` is `writeAllLoop` without the offsets. -/
theorem writeAllLoop_eq {size : Nat} {buffer : List Byte} (hsize : size ≤ buffer.length)
    (sink : List Byte) (script : List IoAnswer) :
    (writeAll sink (buffer.take size) script).map (fun t => (t.ok, t.got, t.source)) =
      (writeAllLoop buffer size { changed := sink } script).map fun (ok, s) =>
        (ok, s.changed, (buffer.take size).drop s.total) := by
  suffices hgen : ∀ s : TransferLoop (List Byte), s.total ≤ size →
      (writeAll s.changed ((buffer.take size).drop s.total) script).map
          (fun t => (t.ok, t.got, t.source)) =
        (writeAllLoop buffer size s script).map fun (ok, s) =>
          (ok, s.changed, (buffer.take size).drop s.total) from
    hgen { changed := sink } (Nat.zero_le size)
  induction script with
  | nil =>
    intro s hs
    unfold writeAll writeAllLoop TransferLoop.run
    have hnil : (buffer.take size).drop s.total = [] ↔ size ≤ s.total := by
      rw [List.drop_eq_nil_iff, List.length_take, Nat.min_eq_left hsize]
    simp only [hnil]
    split <;> simp [hnil.2, *]
  | cons a rest ih =>
    intro s hs
    have hlen : ((buffer.take size).drop s.total).length = size - s.total := by
      rw [List.length_drop, List.length_take, Nat.min_eq_left hsize]
    have hnil : (buffer.take size).drop s.total = [] ↔ size ≤ s.total := by
      rw [List.drop_eq_nil_iff, List.length_take, Nat.min_eq_left hsize]
    unfold writeAll writeAllLoop TransferLoop.run
    simp only [hnil]
    split
    · simp
    · rename_i hlt
      cases a with
      | interrupted => exact ih (s.ask size) hs
      | failed | nothing => simp [TransferLoop.ask]
      | count k =>
        simp only [hlen]
        generalize hn : min (k + 1) (size - s.total) = n
        have hload : ((buffer.take size).drop s.total).take n = load buffer s.total n := by
          rw [load, List.drop_take, List.take_take, Nat.min_eq_left (by omega)]
        have hnext := ih ((s.ask size).advance (fun total_written bytes_written sink =>
          sink ++ load buffer total_written bytes_written) n)
          (show s.total + n ≤ size by omega)
        rw [hload, List.drop_drop]
        exact hnext

end OnlineJudge
