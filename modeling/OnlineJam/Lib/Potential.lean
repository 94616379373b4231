import Mathlib.Algebra.Order.Field.Rat
import Mathlib.Tactic.Linarith

/-!
# Progress by a potential

A sequence of states that loses some potential at every step until a goal is met, and whose potential is
bounded below, meets the goal in time.
-/

namespace OnlineJam.Lib

variable {σ : Type} {f : Nat → σ} {goal inv : σ → Prop} {energy : σ → ℚ} {c low : ℚ}

theorem potential_after (h0 : inv (f 0))
    (hstep : ∀ k, inv (f k) → ¬ goal (f (k + 1)) → inv (f (k + 1)) ∧
      energy (f (k + 1)) + c ≤ energy (f k)) (k : Nat) (hk : ∀ j ≤ k, ¬ goal (f j)) :
    inv (f k) ∧ energy (f k) + k * c ≤ energy (f 0) := by
  induction k with
  | zero => exact ⟨h0, by simp⟩
  | succ k ih =>
    obtain ⟨hi, he⟩ := ih fun j hj => hk j (Nat.le_succ_of_le hj)
    obtain ⟨hi', he'⟩ := hstep k hi (hk (k + 1) le_rfl)
    refine ⟨hi', ?_⟩
    push_cast
    linarith

/-- The goal is met within `N` steps. -/
theorem exists_goal_of_potential (h0 : inv (f 0))
    (hstep : ∀ k, inv (f k) → ¬ goal (f (k + 1)) → inv (f (k + 1)) ∧
      energy (f (k + 1)) + c ≤ energy (f k))
    (hlow : ∀ s, inv s → low ≤ energy s) {N : Nat} (hN : energy (f 0) - low < N * c) :
    ∃ k, k ≤ N ∧ goal (f k) := by
  by_contra hno
  obtain ⟨hi, he⟩ := potential_after h0 hstep N fun k hk hg => hno ⟨k, hk, hg⟩
  have := hlow _ hi
  linarith

end OnlineJam.Lib
