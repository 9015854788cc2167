import OnlineJudge.Protocol
import OnlineJudge.Transfer

/-!
# Message framing

`send_message` and `receive_message` of `common/sandbox_protocol.cpp` on the
control socket: a header of eight bytes, and the payload that it announces. The
functions take the answers of the kernel as `read_all` and `write_all` do.
-/

namespace OnlineJudge

/-- What `send_message` is called with: a value of the type `SandboxMessageType`,
and a payload given with its size. -/
structure Sending where
  type : Word32
  payload : List Byte
  deriving DecidableEq, Repr

namespace Sending

def header (m : Sending) : SandboxMessageHeader := ⟨m.type, BitVec.ofNat 32 m.payload.length⟩

def bytes (m : Sending) : List Byte := m.header.bytes ++ m.payload

/-- What a reader of the message asks `read_all` for. -/
def sizes (m : Sending) : List Nat :=
  headerSize :: if m.payload = [] then [] else [m.payload.length]

/-- The payload has a size that the header can tell. -/
def Sized (m : Sending) : Prop := m.payload.length < 2 ^ 32

theorem length_bytes (m : Sending) : m.bytes.length = headerSize + m.payload.length := by
  simp [bytes]

theorem sum_sizes (m : Sending) : m.sizes.sum = m.bytes.length := by
  rw [length_bytes]
  by_cases h : m.payload = [] <;> simp [sizes, h]

theorem Sized.payload_size {m : Sending} (h : m.Sized) :
    m.header.payload_size.toNat = m.payload.length := by
  simp only [header, BitVec.toNat_ofNat]
  exact Nat.mod_eq_of_lt h

theorem Sized.payload_size_eq_zero {m : Sending} (h : m.Sized) :
    m.header.payload_size = 0 ↔ m.payload = [] := by
  rw [← BitVec.toNat_inj, h.payload_size]
  exact List.length_eq_zero_iff

end Sending

/-- `send_message`, after the bytes `sent` have reached the socket. -/
def sendMessage (sent : List Byte) (m : Sending) (script : List IoAnswer) : Option Transfer :=
  (writeAll sent m.header.bytes script).bind fun t =>
    if !t.ok then some t
    else if m.header.payload_size = 0 then some t
    else writeAll t.got m.payload t.script

/-- Successive calls of `send_message`, up to the first that fails. -/
def sendMessages (sent : List Byte) : List Sending → List IoAnswer → Option Transfer
  | [], script => some ⟨true, sent, [], script⟩
  | m :: ms, script =>
    (sendMessage sent m script).bind fun t =>
      if t.ok then sendMessages t.got ms t.script else some t

/-- What `receive_message` leaves: the header and the payload when it returned
true, the bytes still to come and the answers not used up. -/
structure Receipt where
  message : Option (SandboxMessageHeader × List Byte)
  source : List Byte
  script : List IoAnswer
  deriving DecidableEq, Repr

/-- `receive_message`. -/
def receiveMessage (payload_capacity : Word32) (source : List Byte) (script : List IoAnswer) :
    Option Receipt :=
  (readAll headerSize [] source script).bind fun t =>
    let header := SandboxMessageHeader.ofBytes t.got
    if !t.ok then some ⟨none, t.source, t.script⟩
    else if payload_capacity < header.payload_size then some ⟨none, t.source, t.script⟩
    else if header.payload_size = 0 then some ⟨some (header, []), t.source, t.script⟩
    else (readAll header.payload_size.toNat [] t.source t.script).map fun u =>
      ⟨if u.ok then some (header, u.got) else none, u.source, u.script⟩

/-- What successive calls of `receive_message` yield, up to the first that
returns false. -/
structure Receipts where
  messages : List (SandboxMessageHeader × List Byte)
  ok : Bool
  source : List Byte
  deriving DecidableEq, Repr

/-- Successive calls of `receive_message` with these capacities. -/
def receiveMessages : List Word32 → List Byte → List IoAnswer → Option Receipts
  | [], source, _ => some ⟨[], true, source⟩
  | capacity :: capacities, source, script =>
    (receiveMessage capacity source script).bind fun r =>
      match r.message with
      | none => some ⟨[], false, r.source⟩
      | some message =>
        (receiveMessages capacities r.source r.script).map fun rs =>
          { rs with messages := message :: rs.messages }

/-- The bytes of messages sent one after another. -/
def streamOf (ms : List Sending) : List Byte := ms.flatMap Sending.bytes

/-- What a receiver makes of a message. -/
def Sending.received (m : Sending) : SandboxMessageHeader × List Byte := (m.header, m.payload)

/-- How many of the messages are whole in the first `n` bytes of their stream. -/
def wholeCount : List Sending → Nat → Nat
  | [], _ => 0
  | m :: ms, n => if m.bytes.length ≤ n then wholeCount ms (n - m.bytes.length) + 1 else 0

/-- What a receiver that makes a call for each of these capacities asks
`read_all` for, until the last message has come. -/
def asked : List Word32 → List Sending → List Nat
  | [], _ => []
  | _ :: _, [] => [headerSize]
  | _ :: capacities, m :: ms => m.sizes ++ asked capacities ms

/-! ## Sending -/

variable {m : Sending} {ms : List Sending} {script : List IoAnswer}

theorem sendMessage_steady (sent : List Byte) (hm : m.Sized) (hs : Steady script)
    (hmoves : m.bytes.length ≤ moves script) :
    ∃ script', sendMessage sent m script = some ⟨true, sent ++ m.bytes, [], script'⟩ ∧
      Steady script' ∧ moves script ≤ moves script' + m.bytes.length := by
  rw [m.length_bytes] at hmoves ⊢
  have hlen : m.header.bytes.length = headerSize := SandboxMessageHeader.length_bytes _
  obtain ⟨script₁, hw₁, hs₁, hm₁⟩ :=
    writeAll_steady sent m.header.bytes hs (by omega)
  simp only [sendMessage, hw₁, Option.bind_some, Bool.not_true, Bool.false_eq_true, if_false]
  by_cases hp : m.payload = []
  · rw [if_pos (hm.payload_size_eq_zero.2 hp)]
    exact ⟨script₁, by simp [Sending.bytes, hp], hs₁, by simp [hp]; omega⟩
  · rw [if_neg (fun h => hp (hm.payload_size_eq_zero.1 h))]
    obtain ⟨script₂, hw₂, hs₂, hm₂⟩ :=
      writeAll_steady (sent ++ m.header.bytes) m.payload hs₁ (by omega)
    refine ⟨script₂, ?_, hs₂, by omega⟩
    rw [hw₂, Sending.bytes, List.append_assoc]

theorem sendMessages_steady (sent : List Byte) (hms : ∀ m ∈ ms, m.Sized) (hs : Steady script)
    (hmoves : (streamOf ms).length ≤ moves script) :
    ∃ script', sendMessages sent ms script = some ⟨true, sent ++ streamOf ms, [], script'⟩ := by
  induction ms generalizing sent script with
  | nil => exact ⟨script, by simp [sendMessages, streamOf]⟩
  | cons m ms ih =>
    have hlen : (streamOf (m :: ms)).length = m.bytes.length + (streamOf ms).length := by
      simp [streamOf]
    rw [hlen] at hmoves
    obtain ⟨script₁, hsend, hs₁, hm₁⟩ :=
      sendMessage_steady sent (hms m List.mem_cons_self) hs (by omega)
    obtain ⟨script₂, hrest⟩ := ih (sent ++ m.bytes)
      (fun m' hm' => hms m' (List.mem_cons_of_mem m hm')) hs₁ (by omega)
    refine ⟨script₂, ?_⟩
    simp only [sendMessages, hsend, Option.bind_some, if_true, hrest]
    simp [streamOf]

/-! ## Receiving -/

/-- The front of a stream that begins with a message. -/
theorem length_take_bytes (m : Sending) (rest : List Byte) (n : Nat) (h : m.bytes.length ≤ n) :
    ((m.bytes ++ rest).take n).length =
      m.bytes.length + (rest.take (n - m.bytes.length)).length := by
  rw [List.take_append, List.take_of_length_le h, List.length_append]

/-- A message that arrived whole is received, and consumed exactly; one that is
cut short is not received. -/
theorem receiveMessage_answerable (capacity : Word32) (rest : List Byte) (n : Nat)
    {sizes : List Nat} (hm : m.Sized) (hc : m.payload.length ≤ capacity.toNat)
    (ha : Answerable (m.sizes ++ sizes) ((m.bytes ++ rest).take n).length script)
    (he : min m.bytes.length (((m.bytes ++ rest).take n).length + 1) ≤ answers script) :
    (m.bytes.length ≤ n ∧ ∃ script',
      receiveMessage capacity ((m.bytes ++ rest).take n) script =
        some ⟨some m.received, rest.take (n - m.bytes.length), script'⟩ ∧
      Answerable sizes (rest.take (n - m.bytes.length)).length script' ∧
      answers script ≤ answers script' + m.bytes.length) ∨
    (n < m.bytes.length ∧ ∃ script',
      receiveMessage capacity ((m.bytes ++ rest).take n) script = some ⟨none, [], script'⟩) := by
  have hlen : m.header.bytes.length = headerSize := SandboxMessageHeader.length_bytes _
  have hbytes : m.bytes.length = headerSize + m.payload.length := m.length_bytes
  have hcap : ¬ capacity < m.header.payload_size := by
    rw [BitVec.lt_def, hm.payload_size]
    omega
  rw [Sending.bytes, List.append_assoc] at ha he ⊢
  rw [← Sending.bytes, hbytes] at he ⊢
  rcases readAll_front headerSize [] m.header.bytes (m.payload ++ rest) n (by simp)
      (List.ne_nil_of_length_pos (by rw [hlen]; decide)) (by rw [hlen]; exact ha)
      (by omega) with
    ⟨hn, script₁, hread, ha₁, he₁⟩ | ⟨hn, got, script₁, hread⟩
  · rw [hlen] at hn hread ha₁ he₁
    rw [List.nil_append] at hread
    simp only [receiveMessage, hread, Option.bind_some, SandboxMessageHeader.ofBytes_bytes,
      Bool.not_true, Bool.false_eq_true, if_false, if_neg hcap]
    by_cases hp : m.payload = []
    · rw [if_pos (hm.payload_size_eq_zero.2 hp)]
      simp only [hp, List.nil_append, List.length_nil, Nat.add_zero, if_true] at ha₁ ⊢
      exact .inl ⟨hn, script₁, by rw [Sending.received, hp], ha₁, he₁⟩
    · rw [if_neg (fun h => hp (hm.payload_size_eq_zero.1 h)), hm.payload_size]
      simp only [hp, if_false] at ha₁
      have hleft : ((m.header.bytes ++ (m.payload ++ rest)).take n).length =
          headerSize + ((m.payload ++ rest).take (n - headerSize)).length := by
        rw [List.take_append, List.take_of_length_le (by omega), List.length_append, hlen]
      rcases readAll_front m.payload.length [] m.payload rest (n - headerSize) (by simp) hp ha₁
          (by omega) with
        ⟨hn₂, script₂, hread₂, ha₂, he₂⟩ | ⟨hn₂, got, script₂, hread₂⟩
      · rw [← Nat.sub_add_eq] at hread₂ ha₂
        refine .inl ⟨by omega, script₂, ?_, ha₂, by omega⟩
        rw [hread₂]
        rfl
      · refine .inr ⟨by omega, script₂, ?_⟩
        rw [hread₂]
        rfl
  · refine .inr ⟨by omega, script₁, ?_⟩
    simp only [receiveMessage, hread, Option.bind_some]
    rfl

theorem wholeCount_le (ms : List Sending) (n : Nat) : wholeCount ms n ≤ ms.length := by
  induction ms generalizing n with
  | nil => exact Nat.le_refl _
  | cons m ms ih =>
    simp only [wholeCount, List.length_cons]
    split
    · exact Nat.succ_le_succ (ih _)
    · omega

/-- The messages that are whole are those whose bytes fit. -/
theorem le_wholeCount_iff {k n : Nat} (hk : k ≤ ms.length) :
    k ≤ wholeCount ms n ↔ (streamOf (ms.take k)).length ≤ n := by
  induction ms generalizing k n with
  | nil =>
    have : k = 0 := by simpa using hk
    subst this
    simp [streamOf]
  | cons m ms ih =>
    cases k with
    | zero => simp [streamOf]
    | succ k =>
      have hlen : (streamOf ((m :: ms).take (k + 1))).length =
          m.bytes.length + (streamOf (ms.take k)).length := by
        simp [streamOf]
      have hih := ih (k := k) (n := n - m.bytes.length) (by simpa using hk)
      rw [hlen]
      simp only [wholeCount]
      split
      · omega
      · omega

/-- Successive calls receive the messages that arrived whole, in order, and the
next call returns false. -/
theorem receiveMessages_answerable (capacities : List Word32) (n : Nat) (script : List IoAnswer)
    (hms : ∀ m ∈ ms, m.Sized)
    (hc : ∀ p ∈ capacities.zip ms, p.2.payload.length ≤ p.1.toNat)
    (ha : Answerable (asked capacities ms) ((streamOf ms).take n).length script)
    (he : min (asked capacities ms).sum (((streamOf ms).take n).length + 1) ≤ answers script) :
    ∃ left, receiveMessages capacities ((streamOf ms).take n) script =
        some ⟨(ms.take (min capacities.length (wholeCount ms n))).map Sending.received,
          capacities.length ≤ wholeCount ms n, left⟩ ∧
      (capacities.length ≤ wholeCount ms n →
        left = ((streamOf ms).take n).drop (streamOf (ms.take capacities.length)).length) := by
  induction ms generalizing capacities n script with
  | nil =>
    cases capacities with
    | nil => exact ⟨_, by simp [receiveMessages]; rfl, fun _ => by simp [streamOf]⟩
    | cons capacity capacities =>
      -- no message is left, so the call finds the end of the stream
      rw [show ((streamOf []).take n) = [] by simp [streamOf]] at ha he ⊢
      simp only [asked] at ha he
      rcases readAll_answerable headerSize [] [] (by decide) ha he with
        ⟨hle, -⟩ | ⟨-, got, script', hread⟩
      · exact absurd hle (by decide)
      · refine ⟨[], ?_, by simp [wholeCount]⟩
        simp [receiveMessages, receiveMessage, hread, wholeCount]
  | cons m ms ih =>
    cases capacities with
    | nil => exact ⟨_, by simp [receiveMessages]; rfl, fun _ => by simp [streamOf]⟩
    | cons capacity capacities =>
      have hstream : streamOf (m :: ms) = m.bytes ++ streamOf ms := by simp [streamOf]
      have htake : (streamOf ((m :: ms).take (capacity :: capacities).length)).length =
          m.bytes.length + (streamOf (ms.take capacities.length)).length := by
        simp [streamOf]
      rw [hstream] at ha he ⊢
      rw [htake]
      simp only [asked, List.sum_append, m.sum_sizes] at ha he
      rcases receiveMessage_answerable capacity (streamOf ms) n (hms m List.mem_cons_self)
        (hc (capacity, m) (by simp)) ha (by omega) with
        ⟨hle, script', hread, ha', he'⟩ | ⟨hlt, script', hread⟩
      · have hlen := length_take_bytes m (streamOf ms) n hle
        obtain ⟨left, hrest, hleft⟩ := ih capacities (n - m.bytes.length) script'
          (fun m' hm' => hms m' (List.mem_cons_of_mem m hm')) (fun p hp => hc p (by simp [hp])) ha'
          (by omega)
        have hcount : wholeCount (m :: ms) n = wholeCount ms (n - m.bytes.length) + 1 := by
          simp [wholeCount, hle]
        refine ⟨left, ?_, fun hk => ?_⟩
        · simp only [receiveMessages, hread, Option.bind_some, hrest, Option.map_some, hcount,
            List.length_cons, Nat.add_min_add_right, List.take_succ_cons, List.map_cons,
            Nat.add_le_add_iff_right]
        · rw [hcount, List.length_cons] at hk
          rw [hleft (Nat.le_of_succ_le_succ hk), List.take_append, List.take_of_length_le hle,
            ← List.drop_drop, List.drop_left]
      · refine ⟨[], ?_, by simp [wholeCount]; omega⟩
        simp only [receiveMessages, hread, Option.bind_some]
        simp [wholeCount, Nat.not_le.2 hlt]

/-- What one writer sends, its peer receives: however the kernel splits and
interrupts the transfers, the calls of `receive_message` return the messages that
arrived whole, in order and consuming exactly their bytes, and the next call
returns false. -/
theorem framing_round_trip (ms : List Sending) (hms : ∀ m ∈ ms, m.payload.length < 2 ^ 32) :
    (∀ script : List IoAnswer, Steady script → (streamOf ms).length ≤ moves script →
      ∃ script', sendMessages [] ms script = some ⟨true, streamOf ms, [], script'⟩) ∧
    ∀ (n : Nat) (capacities : List Word32) (script : List IoAnswer),
      (∀ p ∈ capacities.zip ms, p.2.payload.length ≤ p.1.toNat) →
      Answerable (asked capacities ms) ((streamOf ms).take n).length script →
      min (asked capacities ms).sum (((streamOf ms).take n).length + 1) ≤ answers script →
      ∃ left, receiveMessages capacities ((streamOf ms).take n) script =
          some ⟨(ms.take (min capacities.length (wholeCount ms n))).map Sending.received,
            capacities.length ≤ wholeCount ms n, left⟩ ∧
        (capacities.length ≤ wholeCount ms n →
          left = ((streamOf ms).take n).drop (streamOf (ms.take capacities.length)).length) := by
  refine ⟨fun script hs hm => ?_, fun n capacities script hc ha he => ?_⟩
  · obtain ⟨script', hsend⟩ := sendMessages_steady [] hms hs hm
    exact ⟨script', by simpa using hsend⟩
  · exact receiveMessages_answerable capacities n script hms hc ha he

/-- Of two messages the second is cut inside its payload. -/
theorem framing_round_trip_cut :
    let ms : List Sending := [⟨3, []⟩, ⟨1, [7, 7]⟩]
    let script : List IoAnswer :=
      [.count 3, .interrupted, .count 3, .count 7, .count 0] ++ List.replicate 14 .nothing
    (∃ script', sendMessages [] ms (List.replicate 18 (.count 0)) =
      some ⟨true, streamOf ms, [], script'⟩) ∧
    ∃ left, receiveMessages [8, 8] ((streamOf ms).take 17) script =
      some ⟨[(⟨3, 0⟩, [])], false, left⟩ := by
  intro ms script
  obtain ⟨hsend, hreceive⟩ := framing_round_trip ms (by decide)
  obtain ⟨left, h, -⟩ := hreceive 17 [8, 8] script (by decide)
    ⟨by decide, by decide, by decide, by decide, rfl⟩ (by decide)
  exact ⟨hsend _ (by simp [Steady]) (by decide), left, h⟩

end OnlineJudge
