import Mathlib.Algebra.Order.Floor.Semiring
import Mathlib.Algebra.Field.Basic
import Mathlib.Tactic.FieldSimp
import Mathlib.Tactic.Linarith
import Mathlib.Tactic.NormNum
import Mathlib.Tactic.Ring

/-!
# Reading a sampled signal between its samples

The cubic through the two samples on either side whose slopes are the central differences, the curve that
it gives for a whole sequence of samples, and the times at which a reader looks at it who moves on by a
step of its own after each look.
-/

namespace OnlineJam.Lib

section Cubic

variable {K : Type*} [Field K]

/-- The piece between `y1` (at 0) and `y2` (at 1). -/
def cubic (y0 y1 y2 y3 t : K) : K :=
  let c0 := y1
  let c1 := 1 / 2 * (y2 - y0)
  let c2 := y0 - 5 / 2 * y1 + 2 * y2 - 1 / 2 * y3
  let c3 := 1 / 2 * (y3 - y0) + 3 / 2 * (y1 - y2)
  ((c3 * t + c2) * t + c1) * t + c0

theorem cubic_zero (y0 y1 y2 y3 : K) : cubic y0 y1 y2 y3 0 = y1 := by
  simp [cubic]

/-- Samples of a quadratic give back the quadratic. -/
theorem cubic_quadratic [CharZero K] (a b c i t : K) :
    cubic (a * (i - 1) ^ 2 + b * (i - 1) + c) (a * i ^ 2 + b * i + c)
      (a * (i + 1) ^ 2 + b * (i + 1) + c) (a * (i + 2) ^ 2 + b * (i + 2) + c) t =
    a * (i + t) ^ 2 + b * (i + t) + c := by
  unfold cubic
  field_simp
  ring

end Cubic

section Curve

variable {K : Type*} [Field K] [LinearOrder K] [FloorSemiring K]

/-- The curve through the samples `x 0`, `x 1` and so on, from time 1 on. -/
def spline (x : Nat → K) (t : K) : K :=
  let i := ⌊t⌋₊
  cubic (x (i - 1)) (x i) (x (i + 1)) (x (i + 2)) (t - i)

/-- Nothing is lost where the signal is a quadratic. -/
theorem spline_quadratic (a b c : K) {t : K} (ht : 1 ≤ t) :
    spline (fun n => a * n ^ 2 + b * n + c) t = a * t ^ 2 + b * t + c := by
  have hi : 1 ≤ ⌊t⌋₊ := Nat.le_floor (by exact_mod_cast ht)
  have h := cubic_quadratic a b c (⌊t⌋₊ : K) (t - ⌊t⌋₊)
  rw [add_sub_cancel] at h
  rw [← h]
  unfold spline
  push_cast [Nat.cast_sub hi]
  rfl

variable [IsStrictOrderedRing K]

/-- The curve on the interval from `i` to `i + 1`. -/
theorem spline_of_mem (x : Nat → K) {i : Nat} {t : K} (h0 : 0 ≤ t) (h1 : t < 1) :
    spline x (i + t) = cubic (x (i - 1)) (x i) (x (i + 1)) (x (i + 2)) t := by
  have hfloor : ⌊(i : K) + t⌋₊ = i := by
    rw [Nat.floor_eq_iff (by positivity)]
    constructor <;> linarith
  unfold spline
  dsimp only
  rw [hfloor, add_sub_cancel_left]

/-- The curve goes through the samples. -/
theorem spline_natCast (x : Nat → K) (i : Nat) : spline x i = x i := by
  have h := spline_of_mem x (i := i) le_rfl one_pos
  rwa [add_zero, cubic_zero] at h

end Curve

section Looks

variable {K : Type*} [Add K]

/-- The times of the looks of a reader who starts at `t` and moves on by these steps. -/
def looks (t : K) : List K → List K
  | [] => []
  | s :: steps => t :: looks (t + s) steps

/-- Where the reader is after these steps. -/
def arrives (t : K) (steps : List K) : K := steps.foldl (· + ·) t

@[simp] theorem looks_cons (t s : K) (steps : List K) :
    looks t (s :: steps) = t :: looks (t + s) steps := rfl

@[simp] theorem arrives_nil (t : K) : arrives t [] = t := rfl

@[simp] theorem arrives_cons (t s : K) (steps : List K) :
    arrives t (s :: steps) = arrives (t + s) steps := rfl

theorem looks_append (t : K) (steps steps' : List K) :
    looks t (steps ++ steps') = looks t steps ++ looks (arrives t steps) steps' := by
  induction steps generalizing t with
  | nil => rfl
  | cons s steps ih => rw [List.cons_append, looks_cons, looks_cons, arrives_cons, ih, List.cons_append]

theorem arrives_append (t : K) (steps steps' : List K) :
    arrives t (steps ++ steps') = arrives (arrives t steps) steps' := List.foldl_append

end Looks

theorem arrives_replicate {K : Type*} [CommRing K] (t s : K) (n : Nat) :
    arrives t (List.replicate n s) = t + n * s := by
  induction n generalizing t with
  | zero => simp
  | succ n ih =>
    rw [List.replicate_succ, arrives_cons, ih]
    push_cast
    ring

/-- A reader who never moves back looks at nothing before the start. -/
theorem le_of_mem_looks {K : Type*} [AddCommMonoid K] [PartialOrder K] [IsOrderedAddMonoid K] {t : K}
    {steps : List K} (hs : ∀ s ∈ steps, 0 ≤ s) {u : K} (hu : u ∈ looks t steps) : t ≤ u := by
  induction steps generalizing t with
  | nil => cases hu
  | cons s steps ih =>
    rcases List.mem_cons.mp hu with rfl | hu
    · exact le_rfl
    · have hle := ih (fun s' hs' => hs s' (List.mem_cons_of_mem s hs')) hu
      exact (le_add_of_nonneg_right (hs s List.mem_cons_self)).trans hle

theorem looks_replicate_one {K : Type*} [CommRing K] (t : K) (n : Nat) :
    looks t (List.replicate n 1) = (List.range n).map fun k : Nat => t + (k : K) := by
  induction n generalizing t with
  | zero => rfl
  | succ n ih =>
    rw [List.replicate_succ, looks_cons, ih, List.range_succ_eq_map, List.map_cons, List.map_map,
      Nat.cast_zero, add_zero]
    congr 1
    refine List.map_congr_left fun k _ => ?_
    simp only [Function.comp_apply, Nat.succ_eq_add_one, Nat.cast_add, Nat.cast_one]
    ring

end OnlineJam.Lib
