import OnlineJam.Audio.Resample
import Mathlib.Tactic.Linarith
import Mathlib.Tactic.Ring
import Mathlib.Tactic.FieldSimp
import Mathlib.Tactic.NormNum
import Mathlib.Tactic.Positivity

/-!
# Proofs: how many samples the resampler puts out

Every output sample moves the read position by one step, and every input sample takes one off again, so
that the phase keeps account of the difference.
-/

namespace OnlineJam

/-! ## Controller -/

theorem DriftController.clamp_le {bound x : ℚ} (h : 0 ≤ bound) : clamp bound x ≤ bound :=
  max_le (by linarith) (min_le_right _ _)

theorem DriftController.le_clamp {bound x : ℚ} : -bound ≤ clamp bound x := le_max_left _ _

/-- A clamped difference never overshoots. -/
theorem DriftController.clamp_between {bound a b : ℚ} (h : 0 ≤ bound) :
    min a b ≤ a + clamp bound (b - a) ∧ a + clamp bound (b - a) ≤ max a b := by
  have hle : clamp bound (b - a) ≤ max 0 (b - a) :=
    max_le (le_max_of_le_left (by linarith)) (le_max_of_le_right (min_le_left _ _))
  have hge : min 0 (b - a) ≤ clamp bound (b - a) := by
    rcases le_total (b - a) bound with hb | hb
    · rw [clamp, min_eq_left hb]
      exact le_max_of_le_right (min_le_right _ _)
    · exact le_max_of_le_right (by rw [min_eq_right hb]; exact min_le_of_left_le h)
  constructor
  · have := add_le_add_right hge a
    rwa [← min_add_add_left, add_zero, add_sub_cancel] at this
  · have := add_le_add_right hle a
    rwa [← max_add_add_left, add_zero, add_sub_cancel] at this

/-- The correction stays within 500 ppm. -/
structure DriftController.Bounded (d : DriftController) : Prop where
  slew : 0 ≤ d.slewPpm
  max : d.maxPpm = 500
  lower : -500 ≤ d.currentPpm
  upper : d.currentPpm ≤ 500

theorem DriftController.Bounded.new : DriftController.new.Bounded :=
  ⟨by norm_num [DriftController.new], rfl, by norm_num [DriftController.new],
    by norm_num [DriftController.new]⟩

theorem DriftController.Bounded.update {d : DriftController} (h : d.Bounded) (e : ℚ) :
    (d.update e).2.Bounded ∧ (d.update e).1 = 1 + (d.update e).2.currentPpm / 1000000 := by
  refine ⟨⟨h.slew, h.max, ?_, ?_⟩, rfl⟩
  all_goals
    have hmax := h.max
    obtain ⟨h1, h2⟩ := clamp_between (a := d.currentPpm)
      (b := clamp d.maxPpm (-(e * d.kp + clamp d.maxPpm (d.integral + e * d.ki)))) h.slew
  · exact le_trans (le_min h.lower (by rw [← hmax]; exact le_clamp)) h1
  · exact le_trans h2 (max_le h.upper (by rw [← hmax]; exact clamp_le (by rw [hmax]; norm_num)))

namespace HermiteResampler

/-! ## Resampler -/

/-- The read position is at most a step past the interval, and the steps are near 1. -/
structure Ready (r : HermiteResampler) : Prop where
  phase_nonneg : 0 ≤ r.phase
  phase_lt : r.phase < 103 / 100
  primed_le : r.primed ≤ 3
  ratio_ge : 98 / 100 ≤ r.ratio
  ratio_le : r.ratio ≤ 102 / 100

theorem Ready.ratio_pos {r : HermiteResampler} (h : r.Ready) : 0 < r.ratio := by
  have := h.ratio_ge
  linarith

theorem Ready.step_bounds {r : HermiteResampler} (h : r.Ready) :
    98 / 100 ≤ r.step ∧ r.step ≤ 103 / 100 - 9 / 1000 := by
  have hpos := h.ratio_pos
  have h1 := h.ratio_ge
  have h2 := h.ratio_le
  rw [step]
  constructor
  · rw [le_div_iff₀ hpos]
    linarith
  · rw [div_le_iff₀ hpos]
    linarith

theorem Ready.new : HermiteResampler.new.Ready :=
  ⟨le_rfl, by norm_num [HermiteResampler.new], by simp [HermiteResampler.new],
    by norm_num [HermiteResampler.new], by norm_num [HermiteResampler.new]⟩

theorem Ready.setRatio {r : HermiteResampler} (h : r.Ready) (ratio : ℚ) : (r.setRatio ratio).Ready :=
  ⟨h.phase_nonneg, h.phase_lt, h.primed_le, le_max_left _ _,
    max_le (by norm_num) (min_le_right _ _)⟩

/-- What is put out, in input samples: the phase at the end less the phase at the beginning. -/
theorem emit_spec (r : HermiteResampler) (fuel : Nat) :
    (r.emit fuel).2 = { r with phase := r.phase + (r.emit fuel).1.length * r.step } := by
  induction fuel generalizing r with
  | zero => simp [emit]
  | succ fuel ih =>
    rw [emit]
    split
    · have h := ih { r with phase := r.phase + r.step }
      dsimp only
      rw [h]
      simp only [step, List.length_cons, Nat.cast_add, Nat.cast_one]
      congr 1
      ring
    · simp

/-- Two rounds leave the interval, by less than a step. -/
theorem emit_done {r : HermiteResampler} (h : r.Ready) :
    1 ≤ (r.emit 2).2.phase ∧ (r.emit 2).2.phase < 2 + 3 / 100 := by
  obtain ⟨h1, h2⟩ := h.step_bounds
  have h3 := h.phase_nonneg
  have h4 := h.phase_lt
  have hstep : ∀ x : ℚ, step { r with phase := x } = r.step := fun _ => rfl
  by_cases ha : r.phase < 1
  · by_cases hb : r.phase + r.step < 1
    · simp only [emit, ha, hb, hstep, if_true]
      constructor <;> linarith
    · simp only [emit, ha, hb, if_true, if_false]
      constructor <;> linarith
  · simp only [emit, ha, if_false]
    constructor <;> linarith

/-- One input sample: it is used up to warm up, or shows as a change of phase. -/
theorem Ready.feed {r : HermiteResampler} (h : r.Ready) (x : ℚ) :
    (r.feed x).2.Ready ∧ (r.feed x).2.ratio = r.ratio ∧
    (r.feed x).1.length * r.step + ((r.feed x).2.primed - (r.feed x).2.phase) =
      1 + (r.primed - r.phase) ∧ r.primed ≤ (r.feed x).2.primed := by
  have hfed : Ready { r with h := (r.h.2.1, r.h.2.2.1, r.h.2.2.2, x) } :=
    ⟨h.phase_nonneg, h.phase_lt, h.primed_le, h.ratio_ge, h.ratio_le⟩
  rw [HermiteResampler.feed]
  dsimp only
  split
  · rename_i hp
    refine ⟨⟨h.phase_nonneg, h.phase_lt, hp, h.ratio_ge, h.ratio_le⟩, rfl, ?_, Nat.le_succ _⟩
    push_cast
    rw [List.length_nil, Nat.cast_zero]
    ring
  · obtain ⟨h1, h2⟩ := emit_done hfed
    have hspec := emit_spec { r with h := (r.h.2.1, r.h.2.2.1, r.h.2.2.2, x) } 2
    generalize HermiteResampler.emit { r with h := (r.h.2.1, r.h.2.2.1, r.h.2.2.2, x) } 2 = e at h1 h2 hspec ⊢
    obtain ⟨out, r'⟩ := e
    dsimp only at h1 h2 hspec ⊢
    subst hspec
    refine ⟨⟨by dsimp only at h1 ⊢; linarith, by dsimp only at h2 ⊢; linarith, h.primed_le, h.ratio_ge,
      h.ratio_le⟩, rfl, ?_, le_rfl⟩
    rw [show step { r with h := (r.h.2.1, r.h.2.2.1, r.h.2.2.2, x) } = r.step from rfl]
    ring

theorem Ready.feedAll {r : HermiteResampler} (h : r.Ready) (xs : List ℚ) :
    (r.feedAll xs).2.Ready ∧ (r.feedAll xs).2.ratio = r.ratio ∧
    (r.feedAll xs).1.length * r.step + ((r.feedAll xs).2.primed - (r.feedAll xs).2.phase) =
      xs.length + (r.primed - r.phase) ∧ r.primed ≤ (r.feedAll xs).2.primed := by
  induction xs generalizing r with
  | nil => exact ⟨h, rfl, by simp [HermiteResampler.feedAll], le_rfl⟩
  | cons x xs ih =>
    obtain ⟨h1, h2, h3, h4⟩ := h.feed x
    obtain ⟨i1, i2, i3, i4⟩ := ih h1
    have hstep : (r.feed x).2.step = r.step := by rw [step, step, h2]
    rw [hstep] at i3
    rw [HermiteResampler.feedAll]
    refine ⟨i1, i2.trans h2, ?_, h4.trans i4⟩
    dsimp only
    rw [List.length_append, List.length_cons]
    push_cast
    linarith

/-- The headroom is enough: no call puts out more than its output buffer holds. -/
theorem Ready.feedAll_length_le {r : HermiteResampler} (h : r.Ready) (xs : List ℚ) {outLen : Nat}
    (hroom : xs.length * r.ratio + 2 ≤ outLen) : (r.feedAll xs).1.length ≤ outLen := by
  obtain ⟨h1, -, h3, h4⟩ := h.feedAll xs
  have hpos := h.ratio_pos
  have hp : (r.primed : ℚ) ≤ (r.feedAll xs).2.primed := by exact_mod_cast h4
  have hphase := h1.phase_lt
  have hphase0 := h.phase_nonneg
  have hcount : (r.feedAll xs).1.length * r.step ≤ xs.length + 103 / 100 := by linarith
  rw [step, mul_one_div, div_le_iff₀ hpos] at hcount
  have hle : ((r.feedAll xs).1.length : ℚ) ≤ outLen := by
    have hratio := h.ratio_le
    linarith
  exact_mod_cast hle

theorem Ready.process_eq {r : HermiteResampler} (h : r.Ready) (xs : List ℚ) {outLen : Nat}
    (hroom : xs.length * r.ratio + 2 ≤ outLen) : r.process xs outLen = r.feedAll xs := by
  rw [HermiteResampler.process]
  dsimp only
  rw [List.take_of_length_le (h.feedAll_length_le xs hroom)]

/-- A frame that is not longer than the longest one comes out in full. -/
theorem Ready.process_frame {r : HermiteResampler} (h : r.Ready) {xs : List ℚ} (hxs : xs.length ≤ 240) :
    r.process xs 248 = r.feedAll xs := by
  apply h.process_eq
  have hlen : (xs.length : ℚ) ≤ 240 := by exact_mod_cast hxs
  have hmul : xs.length * r.ratio ≤ 240 * (102 / 100) :=
    mul_le_mul hlen h.ratio_le h.ratio_pos.le (by norm_num)
  push_cast
  linarith

end HermiteResampler

end OnlineJam
