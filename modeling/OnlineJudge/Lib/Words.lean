import Mathlib.Tactic.Common
import Mathlib.Algebra.Order.Ring.Nat

/-!
# Little-endian words

`bytesOf n v` is the `n`-byte little-endian layout of `v`, as a C compiler on a
little-endian machine stores an unsigned integer of that width, and
`valueOf` reads any byte string back.
-/

abbrev Byte := BitVec 8

namespace LittleEndian

def bytesOf : Nat → Nat → List Byte
  | 0, _ => []
  | n + 1, v => BitVec.ofNat 8 v :: bytesOf n (v / 256)

def valueOf : List Byte → Nat
  | [] => 0
  | b :: bs => b.toNat + 256 * valueOf bs

@[simp] theorem length_bytesOf (n v : Nat) : (bytesOf n v).length = n := by
  induction n generalizing v with
  | zero => rfl
  | succ n ih => simp [bytesOf, ih]

theorem valueOf_bytesOf (n v : Nat) : valueOf (bytesOf n v) = v % 256 ^ n := by
  induction n generalizing v with
  | zero => simp [bytesOf, valueOf, Nat.mod_one]
  | succ n ih =>
    simp only [bytesOf, valueOf, ih, BitVec.toNat_ofNat]
    rw [show (2 : Nat) ^ 8 = 256 from rfl, Nat.pow_succ', Nat.mod_mul]

/-- A word of `8 * n` bits survives being stored and read back. -/
theorem valueOf_bytesOf_of_lt {n v : Nat} (h : v < 256 ^ n) : valueOf (bytesOf n v) = v := by
  rw [valueOf_bytesOf, Nat.mod_eq_of_lt h]

end LittleEndian

/-- A C `int`, or any other 32-bit word, as its bit pattern. -/
abbrev Word32 := BitVec 32

namespace Word32
open LittleEndian

def bytes (v : Word32) : List Byte := bytesOf 4 v.toNat

def ofBytes (bs : List Byte) : Word32 := BitVec.ofNat 32 (valueOf bs)

@[simp] theorem length_bytes (v : Word32) : (bytes v).length = 4 := length_bytesOf 4 _

@[simp] theorem ofBytes_bytes (v : Word32) : ofBytes (bytes v) = v := by
  rw [ofBytes, bytes, valueOf_bytesOf_of_lt v.isLt, BitVec.ofNat_toNat, BitVec.setWidth_eq]

end Word32
