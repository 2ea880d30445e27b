import Mathlib.Algebra.Ring.Nat
import Mathlib.Data.List.Basic

/-! # Byte strings and little-endian words -/

namespace DataRecovery

def leNat : List UInt8 → Nat
  | [] => 0
  | b :: bs => b.toNat + 256 * leNat bs

def slice (bytes : List UInt8) (off n : Nat) : List UInt8 := (bytes.drop off).take n

def le16 (bytes : List UInt8) (off : Nat) : UInt16 := .ofNat (leNat (slice bytes off 2))

def le32 (bytes : List UInt8) (off : Nat) : UInt32 := .ofNat (leNat (slice bytes off 4))

def le64 (bytes : List UInt8) (off : Nat) : UInt64 := .ofNat (leNat (slice bytes off 8))

def leBytes : Nat → Nat → List UInt8
  | 0, _ => []
  | n + 1, x => UInt8.ofNat x :: leBytes n (x / 256)

theorem leNat_lt : ∀ bs : List UInt8, leNat bs < 256 ^ bs.length
  | [] => by simp [leNat]
  | b :: bs => by
    have hb := b.toNat_lt
    have ih := leNat_lt bs
    simp only [leNat, List.length_cons, Nat.pow_succ]
    omega

theorem leNat_append : ∀ as bs : List UInt8, leNat (as ++ bs) = leNat as + 256 ^ as.length * leNat bs
  | [], bs => by simp [leNat]
  | a :: as, bs => by
    simp only [List.cons_append, leNat, leNat_append as bs, List.length_cons, Nat.pow_succ]
    rw [Nat.mul_add, Nat.add_assoc, ← Nat.mul_assoc, Nat.mul_comm 256 (256 ^ as.length)]

theorem length_leBytes : ∀ n x : Nat, (leBytes n x).length = n
  | 0, _ => rfl
  | n + 1, x => by rw [leBytes, List.length_cons, length_leBytes n]

theorem leNat_leBytes : ∀ n x : Nat, leNat (leBytes n x) = x % 256 ^ n
  | 0, x => by rw [Nat.pow_zero, Nat.mod_one]; rfl
  | n + 1, x => by
    have hpow : 256 ^ (n + 1) = 256 * 256 ^ n := Nat.pow_succ'
    rw [leBytes, leNat, leNat_leBytes n, UInt8.toNat_ofNat', hpow, Nat.mod_mul]

theorem length_slice (bytes : List UInt8) (off n : Nat) : (slice bytes off n).length = min n (bytes.length - off) := by
  simp [slice]

theorem slice_append {bytes : List UInt8} {off n : Nat} (h : off + n ≤ bytes.length) (rest : List UInt8) :
    slice (bytes ++ rest) off n = slice bytes off n := by
  unfold slice
  rw [List.drop_append_of_le_length (by omega), List.take_append_of_le_length (by rw [List.length_drop]; omega)]

theorem slice_succ {bytes : List UInt8} {off : Nat} (h : off < bytes.length) (n : Nat) :
    slice bytes off (n + 1) = bytes.getD off 0 :: slice bytes (off + 1) n := by
  unfold slice
  rw [List.drop_eq_getElem_cons h, List.take_succ_cons]
  simp [List.getD_eq_getElem?_getD, h]

end DataRecovery
