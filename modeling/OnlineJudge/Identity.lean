import Mathlib
import OnlineJudge.Scheduler

/-!
# Execution ids

`ProcessRunner::generateExecutionId` packs a clock reading, a process id and a
counter into 64 bits by exclusive or, so that readings can cancel each other.
-/

namespace OnlineJudge

/-- What one call reads: the steady clock in nanoseconds, the id of the calling
process and the counter of that process. -/
structure IdReadings where
  nanos : BitVec 64
  pid : BitVec 32
  counter : BitVec 64
  deriving DecidableEq, Repr

/-- The 64 bits before 0 is replaced. -/
def IdReadings.packed (r : IdReadings) : BitVec 64 :=
  (r.nanos <<< 16) ^^^ ((r.pid.signExtend 64 &&& 0xFFFF#64) <<< 8) ^^^ r.counter

def generateExecutionId (r : IdReadings) : BitVec 64 := if r.packed = 0 then 1 else r.packed

/-- `Sandbox::setupCgroup` names the directory of an execution so. -/
def cgroupPath (execution_id : BitVec 64) : String :=
  "/sys/fs/cgroup/online-judge/execution-" ++ execution_id.toNat.repr

theorem cgroupPath_injective : Function.Injective cgroupPath := by
  intro a b h
  have hrepr := (String.append_right_inj _).1 h
  exact BitVec.eq_of_toNat_eq (Nat.repr_injective hrepr)

theorem generateExecutionId_ne_zero (r : IdReadings) : generateExecutionId r ≠ 0 := by
  unfold generateExecutionId
  split
  · decide
  · assumption

/-! ## Readings that cancel -/

/-- Seen as three fields: the low byte of the counter meets nothing, its second
byte meets the low byte of the process id, and the rest of it meets the clock
and the second byte of the process id. -/
def IdReadings.Cancels (r : IdReadings) : Prop :=
  r.counter.extractLsb' 0 8 = 0 ∧
  r.counter.extractLsb' 8 8 = r.pid.extractLsb' 0 8 ∧
  r.counter.extractLsb' 16 48 =
    r.nanos.extractLsb' 0 48 ^^^ (r.pid.extractLsb' 8 8).setWidth 48

instance (r : IdReadings) : Decidable r.Cancels := inferInstanceAs (Decidable (_ ∧ _ ∧ _))

theorem getLsbD_clock (nanos : BitVec 64) {i : Nat} (hi : i < 64) :
    (nanos <<< 16).getLsbD i = (decide (16 ≤ i) && nanos.getLsbD (i - 16)) := by
  rw [BitVec.getLsbD_shiftLeft, decide_eq_true hi, Bool.true_and, ← decide_not]
  simp only [Nat.not_lt]

theorem getLsbD_pid_bits (pid : BitVec 32) {i : Nat} (hi : i < 64) :
    ((pid.signExtend 64 &&& 0xFFFF#64) <<< 8).getLsbD i =
      (decide (8 ≤ i ∧ i < 24) && pid.getLsbD (i - 8)) := by
  have hmask : (0xFFFF#64).getLsbD (i - 8) = decide (i - 8 < 16) := by
    rw [show (0xFFFF#64) = BitVec.ofNat 64 (2 ^ 16 - 1) from rfl, BitVec.getLsbD_ofNat,
      Nat.testBit_two_pow_sub_one, decide_eq_true (by omega : i - 8 < 64), Bool.true_and]
  rw [BitVec.getLsbD_shiftLeft, BitVec.getLsbD_and, BitVec.getLsbD_signExtend, hmask]
  by_cases h8 : i < 8
  · simp [h8, Nat.not_le.2 h8]
  · by_cases h24 : i < 24
    · simp [h8, h24, hi, Nat.not_lt.1 h8, show i - 8 < 32 by omega, show i - 8 < 64 by omega,
        show i - 8 < 16 by omega]
    · simp [h24, show ¬ i - 8 < 16 by omega]

theorem getLsbD_packed (r : IdReadings) {i : Nat} (hi : i < 64) :
    r.packed.getLsbD i =
      (((decide (16 ≤ i) && r.nanos.getLsbD (i - 16)) ^^
        (decide (8 ≤ i ∧ i < 24) && r.pid.getLsbD (i - 8))) ^^ r.counter.getLsbD i) := by
  rw [IdReadings.packed, BitVec.getLsbD_xor, BitVec.getLsbD_xor, getLsbD_clock _ hi,
    getLsbD_pid_bits _ hi]

theorem packed_eq_zero_iff_bits (r : IdReadings) :
    r.packed = 0 ↔ ∀ i < 64, r.counter.getLsbD i =
      ((decide (16 ≤ i) && r.nanos.getLsbD (i - 16)) ^^
        (decide (8 ≤ i ∧ i < 24) && r.pid.getLsbD (i - 8))) := by
  constructor
  · intro h i hi
    have hbit := getLsbD_packed r hi
    rw [h, BitVec.ofNat_eq_ofNat, BitVec.getLsbD_zero] at hbit
    exact (bne_eq_false_iff_eq.1 hbit.symm).symm
  · intro h
    apply BitVec.eq_of_getLsbD_eq
    intro i hi
    rw [getLsbD_packed r hi, h i hi]
    simp

theorem packed_eq_zero_iff (r : IdReadings) : r.packed = 0 ↔ r.Cancels := by
  rw [packed_eq_zero_iff_bits]
  constructor
  · intro h
    refine ⟨?_, ?_, ?_⟩ <;> apply BitVec.eq_of_getLsbD_eq <;> intro i hi
    · have := h i (by omega)
      simpa [hi, show ¬ 16 ≤ i by omega, show ¬ 8 ≤ i by omega] using this
    · have := h (8 + i) (by omega)
      simpa [hi, show ¬ 16 ≤ 8 + i by omega, show 8 + i < 24 by omega] using this
    · have := h (16 + i) (by omega)
      simpa [hi, show 16 + i - 8 = 8 + i by omega, show 8 ≤ 16 + i by omega,
        show 16 + i < 24 ↔ i < 8 by omega] using this
  · rintro ⟨hlow, hmiddle, hhigh⟩ i hi
    by_cases h8 : i < 8
    · have := congrArg (·.getLsbD i) hlow
      simpa [h8, Nat.not_le.2 h8, show ¬ 16 ≤ i by omega] using this
    · by_cases h16 : i < 16
      · have := congrArg (·.getLsbD (i - 8)) hmiddle
        simpa [Nat.not_le.2 h16, show i - 8 < 8 by omega, show 8 + (i - 8) = i by omega,
          show i < 24 by omega, show 8 ≤ i by omega] using this
      · have := congrArg (·.getLsbD (i - 16)) hhigh
        simpa [show i - 16 < 48 by omega, show 16 + (i - 16) = i by omega, show 16 ≤ i by omega,
          show 8 ≤ i by omega, show 8 + (i - 16) = i - 8 by omega,
          show i - 16 < 8 ↔ i < 24 by omega] using this

/-! ## Calls that get the same id -/

def IdReadings.xor (a b : IdReadings) : IdReadings :=
  ⟨a.nanos ^^^ b.nanos, a.pid ^^^ b.pid, a.counter ^^^ b.counter⟩

/-- The readings with another lowest bit of the counter. -/
def IdReadings.flip (r : IdReadings) : IdReadings := { r with counter := r.counter ^^^ 1#64 }

/-- Where two calls differ the differences cancel, or one call packs to 0, which
is replaced by 1, and the other to 1. -/
def IdReadings.Collide (a b : IdReadings) : Prop :=
  (a.xor b).Cancels ∨ a.Cancels ∧ b.flip.Cancels ∨ a.flip.Cancels ∧ b.Cancels

instance (a b : IdReadings) : Decidable (a.Collide b) := inferInstanceAs (Decidable (_ ∨ _ ∨ _))

theorem packed_xor (a b : IdReadings) : (a.xor b).packed = a.packed ^^^ b.packed := by
  apply BitVec.eq_of_getLsbD_eq
  intro i hi
  rw [BitVec.getLsbD_xor, getLsbD_packed _ hi, getLsbD_packed _ hi, getLsbD_packed _ hi]
  simp only [IdReadings.xor, BitVec.getLsbD_xor, Bool.and_xor_distrib_left, Bool.xor_assoc,
    Bool.xor_left_comm]

theorem packed_flip (r : IdReadings) : r.flip.packed = r.packed ^^^ 1#64 := by
  simp only [IdReadings.packed, IdReadings.flip, BitVec.xor_assoc]

theorem packed_eq_one_iff (r : IdReadings) : r.packed = 1 ↔ r.flip.Cancels := by
  rw [← packed_eq_zero_iff, packed_flip]
  exact BitVec.xor_eq_zero_iff.symm

theorem generateExecutionId_eq_iff (a b : IdReadings) :
    generateExecutionId a = generateExecutionId b ↔ a.Collide b := by
  have hxor : a.packed = b.packed ↔ (a.xor b).Cancels := by
    rw [← packed_eq_zero_iff, packed_xor]
    exact BitVec.xor_eq_zero_iff.symm
  have h01 : (0 : BitVec 64) ≠ 1 := by decide
  rw [IdReadings.Collide, ← hxor, ← packed_eq_one_iff, ← packed_eq_one_iff, ← packed_eq_zero_iff,
    ← packed_eq_zero_iff]
  unfold generateExecutionId
  split <;> split <;> grind -linarith

/-! ## What the ids are for -/

/-- Distinct calls get distinct ids and directories, none gets 0, and in a queue
of handles with these ids, each used at most once, an id matches one at most. -/
structure Identifies (calls : List IdReadings) : Prop where
  distinct : (calls.map generateExecutionId).Nodup
  nonzero : ∀ r ∈ calls, generateExecutionId r ≠ 0
  directories : (calls.map fun r => cgroupPath (generateExecutionId r)).Nodup
  cancelled : ∀ queue : ExecutionQueue,
    (queue.pending.map ExecutionHandle.execution_id).Subperm (calls.map generateExecutionId) →
    ∀ execution_id, queue.pending.countP (fun handle => handle.execution_id = execution_id) ≤ 1

theorem identifies_of_nodup {calls : List IdReadings}
    (h : (calls.map generateExecutionId).Nodup) : Identifies calls := by
  refine ⟨h, fun r _ => generateExecutionId_ne_zero r, ?_, fun queue hsub execution_id => ?_⟩
  · have := h.map cgroupPath_injective
    rwa [List.map_map] at this
  · have hcount : (queue.pending.map ExecutionHandle.execution_id).count execution_id ≤ 1 :=
      (hsub.count_le execution_id).trans (List.nodup_iff_count_le_one.1 h execution_id)
    rw [List.count, List.countP_map] at hcount
    exact (List.countP_congr (by simp)).le.trans hcount

theorem nodup_ids_iff (calls : List IdReadings) :
    (calls.map generateExecutionId).Nodup ↔ calls.Pairwise fun a b => ¬ a.Collide b := by
  rw [List.Nodup, List.pairwise_map]
  simp only [ne_eq, generateExecutionId_eq_iff]

/-- Whatever some calls read, their ids identify them iff no two of them
collide. -/
theorem execution_ids_identify_iff (calls : List IdReadings) :
    Identifies calls ↔ calls.Pairwise fun a b => ¬ a.Collide b :=
  ⟨fun h => (nodup_ids_iff calls).1 h.distinct,
    fun h => identifies_of_nodup ((nodup_ids_iff calls).2 h)⟩

/-! ## The calls on one machine -/

/-- The steady clock, the counter of each process, the clock readings that
threads have not packed yet, and the calls that have returned. -/
structure IdClerk where
  now : Nat := 0
  counters : BitVec 32 → BitVec 64 := fun _ => 1
  readings : List ((BitVec 32 × Nat) × Nat) := []
  calls : List IdReadings := []

/-- A thread reads the clock in one step and adds to the counter of its process
in a later one. -/
inductive IdStep
  | tick (d : Nat)
  | now (pid : BitVec 32) (thread : Nat)
  | fetchAdd (pid : BitVec 32) (thread : Nat)

def IdClerk.step (m : IdClerk) : IdStep → Option IdClerk
  | .tick d => some { m with now := m.now + d }
  | .now pid thread =>
    if (m.readings.lookup (pid, thread)).isSome then none
    else some { m with readings := ((pid, thread), m.now) :: m.readings }
  | .fetchAdd pid thread =>
    (m.readings.lookup (pid, thread)).map fun nanos =>
      { m with
        counters := fun p => if p = pid then m.counters pid + 1 else m.counters p
        readings := m.readings.eraseP (·.1 = (pid, thread))
        calls := m.calls ++ [⟨BitVec.ofNat 64 nanos, pid, m.counters pid⟩] }

/-- The first calls of two processes whose ids agree in their low byte, one
nanosecond apart. -/
theorem execution_ids_coincide :
    ¬ ∀ (acts : List IdStep) (m : IdClerk), Machine.run IdClerk.step {} acts = some m →
      Identifies m.calls := by
  intro h
  have hids := (h [.tick 1000000000, .now 744 0, .tick 1, .now 1000 0, .fetchAdd 744 0,
    .fetchAdd 1000 0] _ rfl).distinct
  exact absurd hids (by decide)

/-- What the calls of a process read of its counter. -/
def IdClerk.Counted (m : IdClerk) (pid : BitVec 32) : Prop :=
  ∃ n, m.counters pid = BitVec.ofNat 64 (n + 1) ∧
    (m.calls.filter (·.pid = pid)).map IdReadings.counter =
      (List.range n).map fun i => BitVec.ofNat 64 (i + 1)

theorem IdClerk.Counted.step {m m' : IdClerk} {pid : BitVec 32} {a : IdStep} (h : m.Counted pid)
    (hs : m.step a = some m') : m'.Counted pid := by
  obtain ⟨n, hcounter, hcalls⟩ := h
  cases a with
  | tick d => cases hs; exact ⟨n, hcounter, hcalls⟩
  | now p thread =>
    simp only [IdClerk.step] at hs
    split at hs
    · cases hs
    · cases hs; exact ⟨n, hcounter, hcalls⟩
  | fetchAdd p thread =>
    obtain ⟨nanos, -, rfl⟩ := Option.map_eq_some_iff.1 hs
    by_cases hp : pid = p
    · subst hp
      refine ⟨n + 1, ?_, ?_⟩
      · simp only [if_pos, hcounter]
        exact (BitVec.ofNat_add _ 1).symm
      · simp [hcalls, hcounter, List.range_succ]
    · refine ⟨n, ?_, ?_⟩
      · simp only [if_neg hp, hcounter]
      · simp [hcalls, Ne.symm hp]

theorem IdClerk.Counted.reach {acts : List IdStep} {m : IdClerk} (pid : BitVec 32)
    (h : Machine.run IdClerk.step {} acts = some m) : m.Counted pid :=
  Machine.run_keeps (I := fun m => m.Counted pid) (fun _ _ _ hm hs => hm.step hs)
    ⟨0, rfl, rfl⟩ h

theorem IdReadings.Cancels.nanos_lt {r : IdReadings} (h : r.Cancels)
    (hcounter : r.counter.toNat < 2 ^ 16) : r.nanos.toNat % 2 ^ 48 < 2 ^ 8 := by
  have hzero : r.counter.extractLsb' 16 48 = 0#48 := by
    apply BitVec.eq_of_toNat_eq
    rw [BitVec.extractLsb'_toNat, Nat.shiftRight_eq_div_pow, Nat.div_eq_of_lt hcounter]
    rfl
  have hclock : r.nanos.extractLsb' 0 48 = (r.pid.extractLsb' 8 8).setWidth 48 :=
    BitVec.xor_eq_zero_iff.1 (h.2.2.symm.trans hzero)
  have hnat := congrArg BitVec.toNat hclock
  rw [BitVec.extractLsb'_toNat, Nat.shiftRight_zero, BitVec.toNat_setWidth] at hnat
  rw [hnat]
  exact lt_of_le_of_lt (Nat.mod_le _ _) (BitVec.isLt _)

theorem counter_eq_of_cancels {a b : IdReadings} (hpid : a.pid = b.pid)
    (ha : a.counter.toNat < 2 ^ 16) (hb : b.counter.toNat < 2 ^ 16) (h : (a.xor b).Cancels) :
    a.counter = b.counter := by
  obtain ⟨hlow, hmiddle, -⟩ := h
  have hsame : a.pid ^^^ b.pid = 0#32 := BitVec.xor_eq_zero_iff.2 hpid
  simp only [IdReadings.xor, hsame] at hlow hmiddle
  apply BitVec.xor_eq_zero_iff.1
  apply BitVec.eq_of_getLsbD_eq
  intro i hi
  rw [BitVec.getLsbD_zero]
  by_cases h8 : i < 8
  · simpa [h8] using congrArg (·.getLsbD i) hlow
  · by_cases h16 : i < 16
    · simpa [show i - 8 < 8 by omega, show 8 + (i - 8) = i by omega] using
        congrArg (·.getLsbD (i - 8)) hmiddle
    · have hpow : 2 ^ 16 ≤ 2 ^ i := Nat.pow_le_pow_right (by omega) (by omega)
      rw [BitVec.getLsbD_xor, ← BitVec.testBit_toNat, ← BitVec.testBit_toNat,
        Nat.testBit_lt_two_pow (ha.trans_le hpow), Nat.testBit_lt_two_pow (hb.trans_le hpow)]
      rfl

/-- The calls of one process alone are told apart while there are fewer than
2^16 of them and the low 48 bits of the clock are not below 2^8. -/
theorem process_ids_identify {acts : List IdStep} {m : IdClerk} (pid : BitVec 32)
    (h : Machine.run IdClerk.step {} acts = some m)
    (hfew : (m.calls.filter (·.pid = pid)).length < 2 ^ 16)
    (hclock : ∀ r ∈ m.calls, 2 ^ 8 ≤ r.nanos.toNat % 2 ^ 48) :
    Identifies (m.calls.filter (·.pid = pid)) := by
  obtain ⟨n, -, hcounters⟩ := IdClerk.Counted.reach pid h
  have hn : n < 2 ^ 16 := by
    have := congrArg List.length hcounters
    simp only [List.length_map, List.length_range] at this
    omega
  have hmod (i : Nat) (hi : i < n) : (BitVec.ofNat 64 (i + 1)).toNat = i + 1 := by
    rw [BitVec.toNat_ofNat, Nat.mod_eq_of_lt (by omega)]
  have hsmall : ∀ r ∈ m.calls.filter (·.pid = pid), r.counter.toNat < 2 ^ 16 := by
    intro r hr
    obtain ⟨i, hi, heq⟩ := List.mem_map.1 (hcounters ▸ List.mem_map_of_mem hr)
    rw [← heq, hmod i (List.mem_range.1 hi)]
    have := List.mem_range.1 hi
    omega
  have hdistinct : (m.calls.filter (·.pid = pid)).Pairwise fun a b => a.counter ≠ b.counter := by
    rw [← List.pairwise_map, hcounters]
    refine List.Nodup.map_on (fun i hi j hj heq => ?_) List.nodup_range
    have := congrArg BitVec.toNat heq
    rw [hmod i (List.mem_range.1 hi), hmod j (List.mem_range.1 hj)] at this
    omega
  refine identifies_of_nodup ((nodup_ids_iff _).2 ?_)
  refine hdistinct.imp_of_mem fun {a b} ha hb hne => ?_
  have hof {r : IdReadings} (hr : r ∈ m.calls.filter (·.pid = pid)) :
      r.pid = pid ∧ ¬ r.Cancels :=
    ⟨by simpa using (List.mem_filter.1 hr).2, fun hc => absurd (hc.nanos_lt (hsmall r hr))
      (Nat.not_lt.2 (hclock r (List.mem_filter.1 hr).1))⟩
  rintro (hxor | ⟨hcancels, -⟩ | ⟨-, hcancels⟩)
  · exact hne (counter_eq_of_cancels ((hof ha).1.trans (hof hb).1.symm) (hsmall a ha) (hsmall b hb)
      hxor)
  · exact (hof ha).2 hcancels
  · exact (hof hb).2 hcancels

end OnlineJudge
