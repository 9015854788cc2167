import OnlineJudge.Lib.Channel

/-!
# Two-part frames on a channel

Senders put frames into a channel, each in two parts: a header of a fixed size
and a payload. The reader takes a header, learns from it how long the payload
is, and takes that. As long as no sender puts a header while another frame is
half put, the reader gets the frames that were put, in order.
-/

/-- How a frame is put. -/
structure FrameFormat (α M : Type) where
  header : M → List α
  payload : M → List α
  size : Nat
  length_header : ∀ m, (header m).length = size
  size_pos : 0 < size

namespace FrameFormat

variable {α M : Type} (F : FrameFormat α M)

def bytes (m : M) : List α := F.header m ++ F.payload m

/-- What waits in the channel: the frames `unread`, then the header of `half`;
of the frame `begun` the reader has already taken the header. -/
def Frames (c : Channel α) (unread : List M) (half begun : Option M) : Prop :=
  match begun with
  | none => c.pending = unread.flatMap F.bytes ++ half.elim [] F.header
  | some m =>
    (∃ rest, unread = m :: rest ∧
      c.pending = F.payload m ++ rest.flatMap F.bytes ++ half.elim [] F.header) ∨
    unread = [] ∧ half = some m ∧ c.pending = []

variable {F} {c : Channel α} {unread : List M} {half begun : Option M} {m : M}

theorem Frames.init : F.Frames .empty [] none none := rfl

theorem Frames.put_header (h : F.Frames c unread none begun) :
    F.Frames (c.put (F.header m)) unread (some m) begun := by
  cases begun with
  | none =>
    simp only [Frames, Channel.pending_put, Option.elim] at h ⊢
    rw [h, List.append_nil]
  | some b =>
    rcases h with ⟨rest, hu, hp⟩ | ⟨-, hh, -⟩
    · refine .inl ⟨rest, hu, ?_⟩
      simp only [Channel.pending_put, Option.elim] at hp ⊢
      rw [hp, List.append_nil]
    · cases hh

theorem Frames.put_payload (h : F.Frames c unread (some m) begun) :
    F.Frames (c.put (F.payload m)) (unread ++ [m]) none begun := by
  cases begun with
  | none =>
    simp only [Frames, Channel.pending_put, Option.elim] at h ⊢
    rw [h]
    simp [bytes]
  | some b =>
    refine .inl ?_
    rcases h with ⟨rest, hu, hp⟩ | ⟨hu, hh, hp⟩
    · refine ⟨rest ++ [m], by simp [hu], ?_⟩
      simp only [Channel.pending_put, Option.elim] at hp ⊢
      rw [hp]
      simp [bytes]
    · cases hh
      exact ⟨[], by simp [hu], by simp [hp]⟩

/-- The next frame that the reader will see. -/
def next (unread : List M) (half : Option M) : Option M := (unread ++ half.toList).head?

theorem Frames.take_header (h : F.Frames c unread half none)
    (hlen : F.size ≤ c.pending.length) :
    ∃ m, next unread half = some m ∧ c.pending.take F.size = F.header m ∧
      F.Frames (c.take F.size) unread half (some m) := by
  simp only [Frames] at h
  cases unread with
  | cons m rest =>
    have hp : c.pending = F.header m ++ (F.payload m ++ rest.flatMap F.bytes ++
        half.elim [] F.header) := by
      rw [h]
      simp [bytes]
    refine ⟨m, rfl, ?_, .inl ⟨rest, rfl, ?_⟩⟩
    · rw [hp, List.take_left' (F.length_header m)]
    · rw [Channel.pending_take, hp, List.drop_left' (F.length_header m)]
  | nil =>
    cases half with
    | none =>
      rw [h] at hlen
      exact absurd hlen (Nat.not_le.2 F.size_pos)
    | some m =>
      simp only [List.flatMap_nil, Option.elim, List.nil_append] at h
      refine ⟨m, rfl, ?_, .inr ⟨rfl, rfl, ?_⟩⟩
      · rw [h, List.take_of_length_le (Nat.le_of_eq (F.length_header m))]
      · rw [Channel.pending_take, h, List.drop_of_length_le (Nat.le_of_eq (F.length_header m))]

theorem Frames.take_payload {n : Nat} (h : F.Frames c unread half (some m))
    (hn : n = (F.payload m).length) (hpos : 0 < n) (hlen : n ≤ c.pending.length) :
    ∃ rest, unread = m :: rest ∧ c.pending.take n = F.payload m ∧
      F.Frames (c.take n) rest half none := by
  subst hn
  rcases h with ⟨rest, hu, hp⟩ | ⟨-, -, hp⟩
  · rw [List.append_assoc] at hp
    refine ⟨rest, hu, ?_, ?_⟩
    · rw [hp, List.take_left]
    · simp only [Frames, Channel.pending_take]
      rw [hp, List.drop_left]
  · rw [hp] at hlen
    exact absurd hlen (Nat.not_le.2 hpos)

theorem Frames.next_of_begun (h : F.Frames c unread half (some m)) :
    next unread half = some m := by
  rcases h with ⟨rest, hu, -⟩ | ⟨hu, hh, -⟩
  · rw [hu]
    rfl
  · rw [hu, hh]
    rfl

/-- A whole frame waits behind the header that the reader has not taken. -/
theorem Frames.header_le (h : F.Frames c unread half none) (hu : unread ≠ []) :
    F.size ≤ c.pending.length := by
  obtain ⟨m, rest, rfl⟩ := List.exists_cons_of_ne_nil hu
  simp only [Frames, List.flatMap_cons] at h
  rw [h]
  simp [bytes, F.length_header]

theorem Frames.payload_le (h : F.Frames c unread half (some m)) (hh : half = none) :
    (F.payload m).length ≤ c.pending.length := by
  rcases h with ⟨rest, -, hp⟩ | ⟨-, hs, -⟩
  · rw [hp]
    simp
  · rw [hh] at hs
    cases hs

end FrameFormat
