import Mathlib.Algebra.Ring.Int.Defs

/-!
# Serial numbers

A position on the integer line is known by its low `w` bits only. Two positions less than half the
ring apart are ordered by the sign of the wrapped difference of their numbers.
-/

namespace OnlineJam.Lib

/-- The number on a ring of `2 ^ w` of an integer position. -/
def serial (w : Nat) (p : Int) : BitVec w := BitVec.ofInt w p

variable {w : Nat}

theorem serial_add (p q : Int) : serial w (p + q) = serial w p + serial w q := BitVec.ofInt_add p q

theorem serial_sub (p q : Int) : serial w p - serial w q = serial w (p - q) := by
  have hneg : serial w (-q) = -serial w q := BitVec.ofInt_neg
  rw [Int.sub_eq_add_neg, serial_add, BitVec.sub_eq_add_neg, hneg]

/-- Half-range comparison measures the distance of nearby positions exactly. -/
theorem serial_sub_toInt {p q : Int} (hw : 0 < w) (hlo : -2 ^ (w - 1) ≤ p - q)
    (hhi : p - q < 2 ^ (w - 1)) : (serial w p - serial w q).toInt = p - q := by
  rw [serial_sub]
  exact BitVec.toInt_ofInt_eq_self hw hlo hhi

/-- Positions less than half the ring apart are told apart. -/
theorem serial_inj {p q : Int} (hw : 0 < w) (hlo : -2 ^ (w - 1) ≤ p - q) (hhi : p - q < 2 ^ (w - 1))
    (h : serial w p = serial w q) : p = q := by
  have hd := serial_sub_toInt hw hlo hhi
  rw [h, BitVec.sub_self, BitVec.toInt_zero] at hd
  omega

end OnlineJam.Lib
