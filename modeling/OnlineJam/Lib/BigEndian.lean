import Mathlib.Data.List.Basic
import Mathlib.Algebra.Order.Ring.Nat
import Mathlib.Tactic.Ring

/-!
# Big-endian words

The fixed-width big-endian encoding of natural numbers as byte lists, for every width at once. The
two directions are inverse on numbers below `256 ^ n` and on lists of length `n`.
-/

namespace OnlineJam.Lib

/-- The last `n` base-256 digits of `v`, most significant first. -/
def toBe : Nat → Nat → List UInt8
  | 0, _ => []
  | n + 1, v => UInt8.ofNat (v / 256 ^ n) :: toBe n v

/-- The number a byte list denotes, most significant byte first. -/
def fromBe : List UInt8 → Nat
  | [] => 0
  | b :: bs => b.toNat * 256 ^ bs.length + fromBe bs

@[simp] theorem toBe_length (n v : Nat) : (toBe n v).length = n := by
  induction n with
  | zero => rfl
  | succ n ih => simp [toBe, ih]

theorem fromBe_lt (bs : List UInt8) : fromBe bs < 256 ^ bs.length := by
  induction bs with
  | nil => simp [fromBe]
  | cons b bs ih =>
    have hb : b.toNat + 1 ≤ 256 := b.toNat_lt
    calc fromBe (b :: bs) < b.toNat * 256 ^ bs.length + 256 ^ bs.length := by
          simp only [fromBe]; omega
      _ = (b.toNat + 1) * 256 ^ bs.length := by ring
      _ ≤ 256 * 256 ^ bs.length := Nat.mul_le_mul_right _ hb
      _ = 256 ^ (b :: bs).length := by rw [List.length_cons, pow_succ]; ring

theorem fromBe_toBe_mod (n v : Nat) : fromBe (toBe n v) = v % 256 ^ n := by
  induction n with
  | zero => simp [toBe, fromBe, Nat.mod_one]
  | succ n ih =>
    have hd : (UInt8.ofNat (v / 256 ^ n)).toNat = v / 256 ^ n % 256 := by simp
    simp only [toBe, fromBe, toBe_length, ih, hd]
    rw [pow_succ, Nat.mod_mul, Nat.mul_comm (256 ^ n)]
    omega

theorem fromBe_toBe {n v : Nat} (h : v < 256 ^ n) : fromBe (toBe n v) = v := by
  rw [fromBe_toBe_mod, Nat.mod_eq_of_lt h]

theorem toBe_congr {n v w : Nat} (h : v % 256 ^ n = w % 256 ^ n) : toBe n v = toBe n w := by
  induction n with
  | zero => rfl
  | succ n ih =>
    have hp : 0 < 256 ^ n := Nat.pow_pos (by omega)
    have hlow : v % 256 ^ n = w % 256 ^ n := by
      have := congrArg (· % 256 ^ n) h
      simpa [pow_succ, Nat.mod_mul_right_mod] using this
    have hhigh : v / 256 ^ n % 256 = w / 256 ^ n % 256 := by
      have := congrArg (· / 256 ^ n) h
      simpa [pow_succ, Nat.mod_mul_right_div_self] using this
    have hbyte : UInt8.ofNat (v / 256 ^ n) = UInt8.ofNat (w / 256 ^ n) := by
      apply UInt8.toNat_inj.mp
      simpa using hhigh
    simp only [toBe, hbyte, ih hlow]

theorem toBe_fromBe (bs : List UInt8) : toBe bs.length (fromBe bs) = bs := by
  induction bs with
  | nil => rfl
  | cons b bs ih =>
    have hlt := fromBe_lt bs
    have hp : 0 < 256 ^ bs.length := Nat.pow_pos (by omega)
    have hdiv : (b.toNat * 256 ^ bs.length + fromBe bs) / 256 ^ bs.length = b.toNat := by
      rw [Nat.mul_comm, Nat.mul_add_div hp, Nat.div_eq_of_lt hlt, Nat.add_zero]
    have htail : toBe bs.length (b.toNat * 256 ^ bs.length + fromBe bs) = bs := by
      rw [toBe_congr (w := fromBe bs) (by simp), ih]
    simp only [List.length_cons, toBe, fromBe, hdiv, htail, UInt8.ofNat_toNat]

/-- Words are combined bit by bit through their bytes. -/
theorem toBe_xor (n v w : Nat) : toBe n (v ^^^ w) = (toBe n v).zipWith (· ^^^ ·) (toBe n w) := by
  induction n with
  | zero => rfl
  | succ n ih =>
    have hpow : 256 ^ n = 2 ^ (8 * n) := Nat.pow_mul 2 8 n |>.symm
    rw [toBe, toBe, toBe, List.zipWith_cons_cons, ih, hpow, Nat.xor_div_two_pow, UInt8.ofNat_xor]

end OnlineJam.Lib
