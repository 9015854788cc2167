import OnlineJudge.StatusPipe

/-!
# Records of the status pipe

A stream of wait statuses and setup failures, each written by its own routine,
and the calls of `read_status_pipe` that read it back.
-/

namespace OnlineJudge

/-- What is written to the status pipe: a wait status by `write_wait_status`, or
the payload of a setup failure by the lambda `report_failure`. -/
inductive StatusRecord
  | waitStatus (wait_status : Word32)
  | failure (stage : SandboxSetupStage) (error_code : Word32)
  deriving DecidableEq, Repr

/-- `write_wait_status`, after the bytes `sent` have reached the pipe. -/
def writeWaitStatus (sent : List Byte) (wait_status : Word32) (script : List IoAnswer) :
    Option Transfer :=
  (writeAll sent [tag] script).bind fun t =>
    if t.ok then writeAll t.got wait_status.bytes t.script else some t

namespace StatusRecord

def write (sent : List Byte) : StatusRecord → List IoAnswer → Option Transfer
  | waitStatus wait_status, script => writeWaitStatus sent wait_status script
  | failure stage error_code, script => writeAll sent (setupFailure stage error_code).bytes script

/-- The bytes that a record spells. -/
def bytes : StatusRecord → List Byte
  | waitStatus wait_status => tag :: wait_status.bytes
  | failure stage error_code => (setupFailure stage error_code).bytes

/-- What `read_status_pipe` is to make of it. -/
def result : StatusRecord → StatusPipeReadResult
  | waitStatus wait_status => .waitStatus wait_status
  | failure stage error_code => .payload (setupFailure stage error_code)

/-- What a call of `read_status_pipe` asks for when it reads the record. -/
def sizes (r : StatusRecord) : List Nat := [1, r.bytes.length - 1]

theorem length_bytes (r : StatusRecord) :
    r.bytes.length = match r with
      | waitStatus _ => 5
      | failure _ _ => setupFailedSize := by
  cases r <;> simp [bytes]

end StatusRecord

/-- Records written one after another. -/
def writeRecords (sent : List Byte) : List StatusRecord → List IoAnswer → Option Transfer
  | [], script => some ⟨true, sent, [], script⟩
  | r :: rs, script =>
    (r.write sent script).bind fun t => if t.ok then writeRecords t.got rs t.script else some t

/-- The results of so many calls of `read_status_pipe`, one after another. -/
def readRecords : Nat → List Byte → List IoAnswer → Option (List StatusPipeReadResult)
  | 0, _, _ => some []
  | calls + 1, source, script =>
    (readStatusPipe source script).bind fun (r, source, script) =>
      (readRecords calls source script).map (r :: ·)

/-- The bytes of records written one after another. -/
def recordStream (rs : List StatusRecord) : List Byte := rs.flatMap StatusRecord.bytes

variable {r : StatusRecord} {rs : List StatusRecord} {source : List Byte}
  {script : List IoAnswer} {sizes : List Nat}

theorem StatusRecord.write_steady (sent : List Byte) (hs : Steady script)
    (hm : r.bytes.length ≤ moves script) :
    ∃ script', r.write sent script = some ⟨true, sent ++ r.bytes, [], script'⟩ ∧
      Steady script' ∧ moves script ≤ moves script' + r.bytes.length := by
  cases r with
  | failure stage error_code => exact writeAll_steady sent _ hs hm
  | waitStatus wait_status =>
    rw [StatusRecord.length_bytes] at hm ⊢
    simp only at hm ⊢
    obtain ⟨script₁, hw₁, hs₁, hm₁⟩ :=
      writeAll_steady sent [tag] hs (by simp; omega)
    rw [List.length_singleton] at hm₁
    obtain ⟨script₂, hw₂, hs₂, hm₂⟩ := writeAll_steady (sent ++ [tag]) wait_status.bytes hs₁
      (by simp; omega)
    rw [Word32.length_bytes] at hm₂
    refine ⟨script₂, ?_, hs₂, by omega⟩
    simp only [write, writeWaitStatus, hw₁, Option.bind_some, if_true, hw₂]
    simp [bytes]

theorem writeRecords_steady (sent : List Byte) (hs : Steady script)
    (hm : (recordStream rs).length ≤ moves script) :
    ∃ script', writeRecords sent rs script = some ⟨true, sent ++ recordStream rs, [], script'⟩ := by
  induction rs generalizing sent script with
  | nil => exact ⟨script, by simp [writeRecords, recordStream]⟩
  | cons r rs ih =>
    have hlen : (recordStream (r :: rs)).length = r.bytes.length + (recordStream rs).length := by
      simp [recordStream]
    rw [hlen] at hm
    obtain ⟨script₁, hw₁, hs₁, hm₁⟩ := r.write_steady sent hs (by omega)
    obtain ⟨script₂, hw₂⟩ := ih (sent ++ r.bytes) hs₁ (by omega)
    refine ⟨script₂, ?_⟩
    simp only [writeRecords, hw₁, Option.bind_some, if_true, hw₂]
    simp [recordStream]

/-! ## Reading back -/

/-- The first byte of a record: `read_status_pipe` reads the rest by it, or finds
the end of the stream. -/
theorem readStatusPipe_first (ha : Answerable (1 :: sizes) source.length script)
    (he : source.length < answers script) :
    (source = [] ∧ ∃ script', readStatusPipe source script = some (.eof, [], script')) ∨
    ∃ first rest script', source = first :: rest ∧ Answerable sizes rest.length script' ∧
      rest.length < answers script' ∧
      readStatusPipe source script =
        if first = tag then
          (readAll 4 [] rest script').map fun t =>
            (if t.ok then .waitStatus (.ofBytes t.got) else .error, t.source, t.script)
        else
          (readAll setupFailedSize [first] rest script').map fun t =>
            (if t.ok then .payload (.ofBytes t.got) else .error, t.source, t.script) := by
  induction script with
  | nil => simp [answers] at he
  | cons a script ih =>
    cases a with
    | failed => exact ha.elim
    | nothing =>
      have hnil : source = [] := List.eq_nil_of_length_eq_zero ha
      subst hnil
      exact .inl ⟨rfl, script, rfl⟩
    | interrupted =>
      have hanswers : answers (.interrupted :: script) = answers script := by simp [answers]
      exact ih ha (hanswers ▸ he)
    | count k =>
      obtain ⟨hle, hrest⟩ := ha
      have hanswers : answers (.count k :: script) = answers script + 1 := by simp [answers]
      cases source with
      | nil => simp at hle
      | cons first rest =>
        rw [if_pos (by omega), Nat.min_eq_right (by omega)] at hrest
        refine .inr ⟨first, rest, script, rfl, by simpa using hrest, ?_, rfl⟩
        simp only [List.length_cons] at he
        omega

/-- A record that is there is read back; one that is cut is an error. -/
theorem readStatusPipe_record {rest : List Byte} {n : Nat} (hn : 0 < n)
    (ha : Answerable (r.sizes ++ sizes) ((r.bytes ++ rest).take n).length script)
    (he : ((r.bytes ++ rest).take n).length < answers script) :
    (r.bytes.length ≤ n ∧ ∃ script',
      readStatusPipe ((r.bytes ++ rest).take n) script =
        some (r.result, rest.take (n - r.bytes.length), script') ∧
      Answerable sizes (rest.take (n - r.bytes.length)).length script' ∧
      (rest.take (n - r.bytes.length)).length < answers script') ∨
    (n < r.bytes.length ∧ ∃ script',
      readStatusPipe ((r.bytes ++ rest).take n) script = some (.error, [], script')) := by
  obtain ⟨k, rfl⟩ : ∃ k, n = k + 1 := ⟨n - 1, by omega⟩
  obtain ⟨first, tail, hbytes⟩ : ∃ first tail, r.bytes = first :: tail := by
    cases r with
    | waitStatus => exact ⟨_, _, rfl⟩
    | failure stage error_code =>
      obtain ⟨tail, ht⟩ := failure_bytes_cons stage error_code
      exact ⟨_, tail, ht⟩
  have hlen : r.bytes.length = tail.length + 1 := by rw [hbytes, List.length_cons]
  rw [hbytes, List.cons_append, List.take_succ_cons] at ha he ⊢
  have htake (front : List Byte) (hk : front.length ≤ k) :
      ((front ++ rest).take k).length = front.length + (rest.take (k - front.length)).length := by
    rw [List.take_append, List.take_of_length_le hk, List.length_append]
  rcases readStatusPipe_first ha he with ⟨hnil, -⟩ | ⟨first', rest', script₁, hs, ha₁, he₁, hread⟩
  · cases hnil
  cases hs
  rw [hlen, Nat.add_sub_cancel] at ha₁
  rw [← hbytes, hlen, Nat.add_sub_add_right]
  cases r with
  | waitStatus wait_status =>
    cases hbytes
    rw [if_pos rfl] at hread
    rcases readAll_front 4 [] wait_status.bytes rest k (by simp)
        (by simp [← List.length_eq_zero_iff]) ha₁ (by omega) with
      ⟨hk, script₂, hread₂, ha₂, he₂⟩ | ⟨hk, got, script₂, hread₂⟩
    · refine .inl ⟨by omega, script₂, ?_, ha₂, ?_⟩
      · rw [hread, hread₂]
        simp [StatusRecord.result]
      · have := htake wait_status.bytes hk
        omega
    · refine .inr ⟨by omega, script₂, ?_⟩
      rw [hread, hread₂]
      rfl
  | failure stage error_code =>
    have hfirst : first ≠ tag := by
      obtain ⟨tail', ht⟩ := failure_bytes_cons stage error_code
      rw [StatusRecord.bytes, ht] at hbytes
      cases hbytes
      exact stage_head_ne_tag stage
    have hsize : setupFailedSize = [first].length + tail.length := by
      have : (setupFailure stage error_code).bytes.length = setupFailedSize := by simp
      rw [List.length_singleton, ← this, show (setupFailure stage error_code).bytes = first :: tail
        from hbytes, List.length_cons, Nat.add_comm]
    rw [if_neg hfirst] at hread
    rcases readAll_front setupFailedSize [first] tail rest k hsize
        (fun h => by simp [h, setupFailedSize] at hsize) ha₁ (by omega) with
      ⟨hk, script₂, hread₂, ha₂, he₂⟩ | ⟨hk, got, script₂, hread₂⟩
    · refine .inl ⟨by omega, script₂, ?_, ha₂, ?_⟩
      · rw [hread, hread₂, List.singleton_append, ← hbytes]
        simp [StatusRecord.result, StatusRecord.bytes]
      · have := htake tail hk
        omega
    · refine .inr ⟨by omega, script₂, ?_⟩
      rw [hread, hread₂]
      rfl

/-- Calls of `read_status_pipe` take the records off the stream one by one and
leave what follows them. -/
theorem readRecords_front {rest : List Byte}
    (ha : Answerable (rs.flatMap StatusRecord.sizes ++ sizes) (recordStream rs ++ rest).length
      script)
    (he : (recordStream rs ++ rest).length < answers script) :
    ∃ script', (∀ calls, readRecords (rs.length + calls) (recordStream rs ++ rest) script =
        (readRecords calls rest script').map (rs.map StatusRecord.result ++ ·)) ∧
      Answerable sizes rest.length script' ∧ rest.length < answers script' := by
  induction rs generalizing script with
  | nil => exact ⟨script, fun calls => by simp [recordStream], ha, he⟩
  | cons r rs ih =>
    have hstream : recordStream (r :: rs) ++ rest = r.bytes ++ (recordStream rs ++ rest) := by
      simp [recordStream]
    have hsizes : (r :: rs).flatMap StatusRecord.sizes ++ sizes =
        r.sizes ++ (rs.flatMap StatusRecord.sizes ++ sizes) := by simp
    have hall : (r.bytes ++ (recordStream rs ++ rest)).take
        (r.bytes.length + (recordStream rs ++ rest).length) =
          r.bytes ++ (recordStream rs ++ rest) := List.take_of_length_le (by simp)
    have hpos : 0 < r.bytes.length := by rw [r.length_bytes]; cases r <;> simp [setupFailedSize]
    rw [hstream] at he ⊢
    rw [hstream, hsizes] at ha
    rw [← hall] at ha he
    rcases readStatusPipe_record (by omega) ha he with
      ⟨-, script₁, hread, ha₁, he₁⟩ | ⟨hlt, -⟩
    · rw [Nat.add_sub_cancel_left, List.take_length] at hread ha₁ he₁
      obtain ⟨script₂, hrest, ha₂, he₂⟩ := ih ha₁ he₁
      refine ⟨script₂, fun calls => ?_, ha₂, he₂⟩
      rw [hall] at hread
      rw [List.length_cons, Nat.add_right_comm]
      simp only [readRecords, hread, Option.bind_some, hrest calls, Option.map_map]
      rfl
    · omega

/-- However the kernel splits the transfers, the records written one after
another are read back as they were meant, and the end of the stream is told from
a record that is cut. -/
theorem status_records_round_trip (rs : List StatusRecord) :
    (∀ script : List IoAnswer, Steady script → (recordStream rs).length ≤ moves script →
      ∃ script', writeRecords [] rs script = some ⟨true, recordStream rs, [], script'⟩) ∧
    (∀ script : List IoAnswer,
      Answerable (rs.flatMap StatusRecord.sizes ++ [1]) (recordStream rs).length script →
      (recordStream rs).length < answers script →
      readRecords (rs.length + 1) (recordStream rs) script =
        some (rs.map StatusRecord.result ++ [.eof])) ∧
    ∀ (r : StatusRecord) (n : Nat) (script : List IoAnswer), 0 < n → n < r.bytes.length →
      Answerable (rs.flatMap StatusRecord.sizes ++ r.sizes)
        (recordStream rs ++ r.bytes.take n).length script →
      (recordStream rs ++ r.bytes.take n).length < answers script →
      readRecords (rs.length + 1) (recordStream rs ++ r.bytes.take n) script =
        some (rs.map StatusRecord.result ++ [.error]) := by
  refine ⟨fun script hs hm => ?_, fun script ha he => ?_, fun r n script hn hlt ha he => ?_⟩
  · obtain ⟨script', hwrite⟩ := writeRecords_steady [] hs hm
    exact ⟨script', by simpa using hwrite⟩
  · have hnil : recordStream rs ++ [] = recordStream rs := List.append_nil _
    rw [← hnil] at ha he ⊢
    obtain ⟨script₁, hread, ha₁, he₁⟩ := readRecords_front ha he
    rw [hread 1]
    rcases readStatusPipe_first ha₁ he₁ with ⟨-, script₂, heof⟩ | ⟨_, _, _, hcons, -⟩
    · simp [readRecords, heof]
    · cases hcons
  · obtain ⟨script₁, hread, ha₁, he₁⟩ := readRecords_front ha he
    rw [hread 1]
    have happ : r.bytes.take n = (r.bytes ++ []).take n := by rw [List.append_nil]
    have hnone : r.sizes = r.sizes ++ [] := (List.append_nil _).symm
    rw [happ] at ha₁ he₁ ⊢
    rw [hnone] at ha₁
    rcases readStatusPipe_record hn ha₁ he₁ with ⟨hle, -⟩ | ⟨-, script₂, herror⟩
    · omega
    · simp only [readRecords, herror, Option.bind_some, Option.map_some]

/-- A failed `execvp` of the submission and a forwarded status, the second cut. -/
theorem status_records_round_trip_cut :
    let rs : List StatusRecord := [.failure .exec 2]
    let script : List IoAnswer :=
      [.count 0, .interrupted, .count 2, .count 3, .count 1, .count 0, .count 0] ++
        List.replicate 10 .nothing
    readRecords 2 (recordStream rs ++ (StatusRecord.waitStatus 256).bytes.take 3) script =
      some [.payload (setupFailure .exec 2), .error] := by
  intro rs script
  obtain ⟨-, -, hcut⟩ := status_records_round_trip rs
  exact hcut (.waitStatus 256) 3 script (by decide) (by decide)
    ⟨by decide, by decide, by decide, by decide, by decide, by decide, rfl⟩ (by decide)

end OnlineJudge
