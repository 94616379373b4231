import Mathlib.Data.List.Rotate
import OnlineJam.Lib.Cursor

/-!
# Lists as rings

Blocks that are read from a list, and written into it, from some place on and past its end. Seen from
that place, as a rotation, they are at the beginning.
-/

namespace OnlineJam.Lib

variable {α : Type*}

/-- The list with a block written over it from `i` on. -/
def overwrite (xs : List α) (i : Nat) (ys : List α) : List α := xs.take i ++ ys ++ xs.drop (i + ys.length)

/-- The same, where the block goes on at the beginning after the end. -/
def overwriteRing (xs : List α) (i : Nat) (ys : List α) : List α :=
  let first := min (xs.length - i) ys.length
  let once := overwrite xs i (ys.take first)
  if 0 < ys.length - first then overwrite once 0 (ys.drop first) else once

/-- A block of `m` items from `i` on, which goes on at the beginning after the end. -/
def readRing (xs : List α) (i m : Nat) : List α :=
  let first := min (xs.length - i) m
  (xs.drop i).take first ++ xs.take (m - first)

/-- The `len` items from `i` on. -/
def window (xs : List α) (i len : Nat) : List α := (xs.rotate i).take len

theorem length_overwrite {xs ys : List α} {i : Nat} (h : i + ys.length ≤ xs.length) :
    (overwrite xs i ys).length = xs.length := by
  rw [overwrite, List.length_append, List.length_append, List.length_take_of_le (by omega),
    List.length_drop]
  omega

theorem length_window {xs : List α} {i len : Nat} (h : len ≤ xs.length) :
    (window xs i len).length = len := by
  rw [window, List.length_take_of_le (by rw [List.length_rotate]; exact h)]

theorem readRing_eq {xs : List α} {i m : Nat} (hi : i ≤ xs.length) (hm : m ≤ xs.length) :
    readRing xs i m = window xs i m := by
  rw [readRing, window, List.rotate_eq_drop_append_take hi, List.take_append, List.length_drop,
    List.take_take]
  congr 1
  · rw [← List.length_drop, List.take_eq_take_iff]
    omega
  · congr 1
    omega

/-- The rest of a window, seen from further on. -/
theorem window_drop {xs : List α} {i m len : Nat} (hm : m ≤ len) (hlen : len ≤ xs.length) :
    window xs ((i + m) % xs.length) (len - m) = (window xs i len).drop m := by
  have hm' : m ≤ (xs.rotate i).length := by
    rw [List.length_rotate]
    omega
  rw [window, window, List.rotate_mod, ← List.rotate_rotate, List.rotate_eq_drop_append_take hm',
    List.take_append_of_le_length, List.drop_take]
  rw [List.length_drop, List.length_rotate]
  omega

/-- A block written into a ring is what is seen from the place it was written to. -/
theorem overwriteRing_rotate {xs ys : List α} {i : Nat} (hi : i ≤ xs.length)
    (hlen : ys.length ≤ xs.length) :
    (overwriteRing xs i ys).length = xs.length ∧
      (overwriteRing xs i ys).rotate i = ys ++ (xs.rotate i).drop ys.length := by
  rw [overwriteRing, List.rotate_eq_drop_append_take hi]
  by_cases hfits : i + ys.length ≤ xs.length
  · have hfirst : min (xs.length - i) ys.length = ys.length := by omega
    rw [hfirst, Nat.sub_self, if_neg (Nat.lt_irrefl 0), List.take_length]
    have hl := length_overwrite hfits
    refine ⟨hl, ?_⟩
    have htake : (xs.take i).length = i := List.length_take_of_le hi
    rw [List.rotate_eq_drop_append_take (by omega), overwrite, List.append_assoc,
      List.drop_left' htake, List.take_left' htake, List.append_assoc,
      List.drop_append_of_le_length (by rw [List.length_drop]; omega), List.drop_drop]
  · have hfirst : min (xs.length - i) ys.length = xs.length - i := by omega
    have hu : (xs.take i).length = i := List.length_take_of_le hi
    have ha : (ys.take (xs.length - i)).length = xs.length - i := List.length_take_of_le (by omega)
    have hb : (ys.drop (xs.length - i)).length = ys.length - (xs.length - i) := List.length_drop
    have hys : ys = ys.take (xs.length - i) ++ ys.drop (xs.length - i) :=
      (List.take_append_drop _ _).symm
    have honce : overwrite xs i (ys.take (xs.length - i)) = xs.take i ++ ys.take (xs.length - i) := by
      rw [overwrite, ha, List.drop_of_length_le (by omega), List.append_nil]
    have htwice : overwrite (xs.take i ++ ys.take (xs.length - i)) 0 (ys.drop (xs.length - i)) =
        ys.drop (xs.length - i) ++ (xs.take i).drop (ys.drop (xs.length - i)).length ++
          ys.take (xs.length - i) := by
      rw [overwrite, List.take_zero, List.nil_append, Nat.zero_add,
        List.drop_append_of_le_length (by omega), List.append_assoc]
    have hfront : (ys.drop (xs.length - i) ++
        (xs.take i).drop (ys.drop (xs.length - i)).length).length = i := by
      rw [List.length_append, List.length_drop (l := xs.take i)]
      omega
    rw [hfirst, if_pos (by omega), honce, htwice]
    have hl : (ys.drop (xs.length - i) ++ (xs.take i).drop (ys.drop (xs.length - i)).length ++
        ys.take (xs.length - i)).length = xs.length := by
      rw [List.length_append, hfront, ha]
      omega
    refine ⟨hl, ?_⟩
    have hnil : (xs.drop i).drop ys.length = [] :=
      List.drop_of_length_le (by rw [List.length_drop]; omega)
    rw [List.rotate_eq_drop_append_take (by omega), List.drop_left' hfront, List.take_left' hfront,
      List.drop_append, hnil, List.nil_append, List.length_drop (l := xs), ← hb, ← List.append_assoc,
      ← hys]

/-- A block written behind a window extends it. -/
theorem window_overwriteRing {xs ys : List α} {i len : Nat} (hpos : 0 < xs.length)
    (hlen : len + ys.length ≤ xs.length) :
    window (overwriteRing xs ((i + len) % xs.length) ys) i (len + ys.length) = window xs i len ++ ys := by
  have hplace : (i + len) % xs.length ≤ xs.length := (Nat.mod_lt _ hpos).le
  obtain ⟨hl, hrot⟩ := overwriteRing_rotate hplace (show ys.length ≤ xs.length by omega)
  rw [window, window]
  generalize overwriteRing xs ((i + len) % xs.length) ys = ring at hl hrot ⊢
  have hmod : ring.rotate ((i + len) % xs.length) = (ring.rotate i).rotate len := by
    rw [← hl, List.rotate_mod, List.rotate_rotate]
  rw [hmod, List.rotate_mod, ← List.rotate_rotate] at hrot
  have hr' : (ring.rotate i).length = xs.length := by rw [List.length_rotate, hl]
  generalize ring.rotate i = r at hrot hr' ⊢
  have hx' : (xs.rotate i).length = xs.length := List.length_rotate ..
  rw [List.rotate_eq_drop_append_take (by omega), List.rotate_eq_drop_append_take (by omega),
    List.drop_append_of_le_length (by rw [List.length_drop]; omega), List.drop_drop,
    ← List.append_assoc] at hrot
  obtain ⟨hback, hfront⟩ := List.append_inj' hrot (by
    rw [List.length_take_of_le (by omega), List.length_take_of_le (by omega)])
  rw [← List.take_append_drop len r, hfront, hback, ← List.append_assoc]
  exact List.take_left' (by rw [List.length_append, List.length_take_of_le (by omega)])

/-! ## Item by item -/

/-- A window, seen item by item. -/
theorem window_eq_map {xs : List α} {i len : Nat} (d : α) (hlen : len ≤ xs.length) :
    window xs i len = (List.range len).map fun k => xs.getD ((i + k) % xs.length) d := by
  refine List.ext_getElem ?_ fun k hk _ => ?_
  · rw [length_window hlen, List.length_map, List.length_range]
  · rw [length_window hlen] at hk
    have hplace : (k + i) % xs.length < xs.length := Nat.mod_lt _ (by omega)
    simp only [window, List.getElem_take, List.getElem_rotate, List.getElem_map, List.getElem_range]
    rw [Nat.add_comm i k, List.getD_eq_getElem?_getD, List.getElem?_eq_getElem hplace, Option.getD_some]

/-! ## Checked access -/

section Checked

variable {β : Type} {xs ys : List β} {i : Nat}

theorem copyAt_eq (h : i + ys.length ≤ xs.length) : copyAt xs i ys = some (overwrite xs i ys) := if_pos h

/-- A block is written past the end with two copies, both in range. -/
theorem copyAt_twice (hi : i ≤ xs.length) (hlen : ys.length ≤ xs.length) :
    ((copyAt xs i (ys.take (min (xs.length - i) ys.length))).bind fun once =>
      if 0 < ys.length - min (xs.length - i) ys.length then
        copyAt once 0 (ys.drop (min (xs.length - i) ys.length))
      else some once) = some (overwriteRing xs i ys) := by
  have htake : (ys.take (min (xs.length - i) ys.length)).length = min (xs.length - i) ys.length :=
    List.length_take_of_le (Nat.min_le_right _ _)
  have hfirst : i + (ys.take (min (xs.length - i) ys.length)).length ≤ xs.length := by
    rw [htake]
    omega
  rw [overwriteRing, copyAt_eq hfirst, Option.bind_some]
  split
  · refine copyAt_eq ?_
    rw [length_overwrite hfirst, List.length_drop]
    omega
  · rfl

/-- A block is read past the end with two copies, both in range and both of the right length. -/
theorem copyAt_readRing {out : List β} (hlen : out.length ≤ xs.length) :
    ((copyAt out 0 ((xs.drop i).take (min (xs.length - i) out.length))).bind fun filled =>
      if 0 < out.length - min (xs.length - i) out.length then
        copyAt filled (min (xs.length - i) out.length)
          (xs.take (out.length - min (xs.length - i) out.length))
      else some filled) = some (readRing xs i out.length) := by
  have hfirst : min (xs.length - i) out.length ≤ out.length := Nat.min_le_right _ _
  have hdrop : min (xs.length - i) out.length ≤ (xs.drop i).length := by
    rw [List.length_drop]
    exact Nat.min_le_left _ _
  rw [readRing]
  generalize min (xs.length - i) out.length = first at hfirst hdrop ⊢
  have hu : ((xs.drop i).take first).length = first := List.length_take_of_le hdrop
  have hv : (xs.take (out.length - first)).length = out.length - first :=
    List.length_take_of_le (by omega)
  generalize (xs.drop i).take first = u at hu ⊢
  generalize xs.take (out.length - first) = v at hv ⊢
  have hu' : overwrite out 0 u = u ++ out.drop first := by
    rw [overwrite, List.take_zero, List.nil_append, Nat.zero_add, hu]
  rw [copyAt_eq (by omega), Option.bind_some, hu']
  split
  · rw [copyAt_eq (by rw [List.length_append, List.length_drop]; omega), overwrite, hv,
      List.take_left' hu, List.drop_of_length_le, List.append_nil]
    rw [List.length_append, List.length_drop]
    omega
  · have hnil : v = [] := List.eq_nil_of_length_eq_zero (by omega)
    rw [hnil, List.drop_of_length_le (by omega)]

end Checked

end OnlineJam.Lib
