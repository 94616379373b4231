import OnlineJam.Lib.Spline
import OnlineJam.Proofs.ResampleProofs
import Mathlib.Data.Rat.Floor

/-!
# Proofs: when the resampler looks at its input

The history of four samples and the phase say at which time of the input the next output sample is taken.
A call boundary does not show in them, and a new ratio changes only the steps to come.
-/

namespace OnlineJam

open OnlineJam.Lib

/-- One call of `process`: the ratio set before it, how many samples it gets, and an output buffer with
the headroom its documentation asks for. -/
structure ProcessCall where
  ratio : ℚ
  len : Nat
  outLen : Nat
  ratio_ge : 98 / 100 ≤ ratio
  ratio_le : ratio ≤ 102 / 100
  room : len * ratio + 2 ≤ outLen

namespace HermiteResampler

/-- Calls on successive pieces of the samples `x`, from number `m` on: the output, each sample with the
ratio it was produced under. -/
def processAll (x : Nat → ℚ) (r : HermiteResampler) (m : Nat) :
    List ProcessCall → List (ℚ × ℚ) × HermiteResampler
  | [] => ([], r)
  | c :: calls =>
    let (out, r) := (r.setRatio c.ratio).process ((List.range' m c.len).map x) c.outLen
    let (outs, r) := processAll x r (m + c.len) calls
    (out.map (fun y => (y, c.ratio)) ++ outs, r)

/-- After `m` samples of `x` the next output sample is due at time `t`. -/
structure Tracks (r : HermiteResampler) (x : Nat → ℚ) (m : Nat) (t : ℚ) : Prop where
  ready : r.Ready
  primed : r.primed = min m 3
  newest : 1 ≤ m → r.h.2.2.2 = x (m - 1)
  second : 2 ≤ m → r.h.2.2.1 = x (m - 2)
  third : 3 ≤ m → r.h.2.1 = x (m - 3)
  phase : t = r.phase + (max m 3 : Nat) - 2

theorem Tracks.new (x : Nat → ℚ) : HermiteResampler.new.Tracks x 0 1 where
  ready := Ready.new
  primed := rfl
  newest := fun h => by omega
  second := fun h => by omega
  third := fun h => by omega
  phase := by norm_num [HermiteResampler.new]

theorem Tracks.setRatio {r : HermiteResampler} {x : Nat → ℚ} {m : Nat} {t : ℚ} (h : r.Tracks x m t)
    (ratio : ℚ) : (r.setRatio ratio).Tracks x m t :=
  ⟨h.ready.setRatio ratio, h.primed, h.newest, h.second, h.third, h.phase⟩

/-! ## One interval -/

/-- The samples put out within the interval from `i` to `i + 1`. -/
theorem emit_looks {r : HermiteResampler} {x : Nat → ℚ} {i : Nat}
    (hh : r.h = (x (i - 1), x i, x (i + 1), x (i + 2))) (h0 : 0 ≤ r.phase) (hstep : 0 ≤ r.step)
    (fuel : Nat) :
    (r.emit fuel).1 =
      (looks (i + r.phase) (List.replicate (r.emit fuel).1.length r.step)).map (spline x) ∧
    ∀ u ∈ looks (i + r.phase) (List.replicate (r.emit fuel).1.length r.step), u < i + 1 := by
  induction fuel generalizing r with
  | zero => exact ⟨rfl, fun u hu => by cases hu⟩
  | succ fuel ih =>
    rw [emit]
    by_cases h1 : r.phase < 1
    · rw [if_pos h1]
      have hnext := ih (r := { r with phase := r.phase + r.step }) hh (add_nonneg h0 hstep) hstep
      obtain ⟨hout, hlt⟩ := hnext
      have hlook : r.interpolate r.phase = spline x (i + r.phase) := by
        rw [spline_of_mem x h0 h1, interpolate, hh]
        rfl
      dsimp only at hout hlt ⊢
      rw [← add_assoc] at hout hlt
      rw [List.length_cons, List.replicate_succ, looks_cons, List.map_cons, hlook]
      refine ⟨congrArg _ hout, fun u hu => ?_⟩
      rcases List.mem_cons.mp hu with rfl | hu
      · linarith
      · exact hlt u hu
    · rw [if_neg h1]
      exact ⟨rfl, fun u hu => by cases hu⟩

/-- One more sample: what comes out, and the time of the next one. -/
theorem Tracks.feed {r : HermiteResampler} {x : Nat → ℚ} {m : Nat} {t : ℚ} (h : r.Tracks x m t) :
    (r.feed (x m)).1 = (looks t (List.replicate (r.feed (x m)).1.length r.step)).map (spline x) ∧
    (∀ u ∈ looks t (List.replicate (r.feed (x m)).1.length r.step), u + 2 < (m + 1 : Nat)) ∧
    (r.feed (x m)).2.Tracks x (m + 1) (arrives t (List.replicate (r.feed (x m)).1.length r.step)) := by
  obtain ⟨hready, hratio, -, -⟩ := h.ready.feed (x m)
  have hprimed := h.primed
  have hphase := h.phase
  by_cases hwarm : m < 3
  · -- Nothing comes out until three samples have been taken in.
    have hfeed : r.feed (x m) = ([], { r with
        h := (r.h.2.1, r.h.2.2.1, r.h.2.2.2, x m), primed := r.primed + 1 }) := by
      rw [HermiteResampler.feed]
      exact if_pos (show r.primed < 3 by omega)
    rw [hfeed] at hready ⊢
    refine ⟨rfl, fun u hu => (by cases hu), hready, ?_, fun _ => rfl, fun h2 => ?_, fun h3 => ?_, ?_⟩
    · dsimp only
      omega
    · exact h.newest (by omega)
    · exact h.second (by omega)
    · rw [show max (m + 1) 3 = max m 3 by omega]
      exact hphase
  · have hi : m - 2 + 2 = m := by omega
    let r₁ : HermiteResampler := { r with h := (r.h.2.1, r.h.2.2.1, r.h.2.2.2, x m) }
    have hfeed : r.feed (x m) = ((r₁.emit 2).1, { (r₁.emit 2).2 with phase := (r₁.emit 2).2.phase - 1 }) := by
      rw [HermiteResampler.feed]
      exact if_neg (show ¬ r.primed < 3 by omega)
    have hspec := emit_spec r₁ 2
    have hh : r₁.h = (x (m - 2 - 1), x (m - 2), x (m - 2 + 1), x (m - 2 + 2)) := by
      have h1 := h.newest (by omega)
      have h2 := h.second (by omega)
      have h3 := h.third (by omega)
      rw [hi, show m - 2 - 1 = m - 3 by omega, show m - 2 + 1 = m - 1 by omega, ← h1, ← h2, ← h3]
    have hcast : ((max m 3 : Nat) : ℚ) = ((m - 2 : Nat) : ℚ) + 2 := by
      rw [show max m 3 = m - 2 + 2 by omega]
      push_cast
      ring
    have ht : t = ((m - 2 : Nat) : ℚ) + r₁.phase := by
      rw [hphase, hcast]
      show r.phase + _ - 2 = _ + r.phase
      ring
    obtain ⟨hstep, -⟩ := h.ready.step_bounds
    obtain ⟨hout, hlt⟩ := emit_looks hh h.ready.phase_nonneg (show 0 ≤ r.step by linarith) 2
    rw [← ht] at hout hlt
    rw [hfeed] at hready ⊢
    refine ⟨hout, fun u hu => ?_, hready, ?_, fun _ => ?_, fun _ => ?_, fun _ => ?_, ?_⟩
    · have hu := hlt u hu
      rw [show m + 1 = m - 2 + 3 by omega]
      push_cast
      linarith
    all_goals
      dsimp only
      rw [hspec]
      dsimp only
    · show r.primed = _
      omega
    · rfl
    · exact h.newest (by omega)
    · exact h.second (by omega)
    · rw [arrives_replicate, show max (m + 1) 3 = m - 2 + 3 by omega, hphase, hcast]
      push_cast
      show _ = r.phase + _ * r.step - 1 + _ - 2
      ring

/-! ## Whole calls -/

theorem Tracks.feedAll {r : HermiteResampler} {x : Nat → ℚ} {m : Nat} {t : ℚ} (h : r.Tracks x m t)
    (len : Nat) (steps : List ℚ)
    (hsteps : steps = List.replicate (r.feedAll ((List.range' m len).map x)).1.length r.step) :
    (r.feedAll ((List.range' m len).map x)).1 = (looks t steps).map (spline x) ∧
    (∀ u ∈ looks t steps, u + 2 < (m + len : Nat)) ∧
    (r.feedAll ((List.range' m len).map x)).2.Tracks x (m + len) (arrives t steps) := by
  induction len generalizing r m t steps with
  | zero =>
    obtain rfl : steps = [] := hsteps
    exact ⟨rfl, fun u hu => (by cases hu), h⟩
  | succ len ih =>
    obtain ⟨hout, hlt, hnext⟩ := h.feed
    obtain ⟨-, hratio, -, -⟩ := h.ready.feed (x m)
    have hstep : (r.feed (x m)).2.step = r.step := by rw [step, step, hratio]
    have hall : r.feedAll ((List.range' m (len + 1)).map x) =
        ((r.feed (x m)).1 ++ ((r.feed (x m)).2.feedAll ((List.range' (m + 1) len).map x)).1,
          ((r.feed (x m)).2.feedAll ((List.range' (m + 1) len).map x)).2) := rfl
    obtain ⟨hout', hlt', hnext'⟩ := ih hnext _ rfl
    rw [hall, List.length_append, List.replicate_add] at hsteps
    rw [hstep] at hout' hlt' hnext'
    rw [hall, hsteps, looks_append, arrives_append, List.map_append]
    rw [show m + (len + 1) = m + 1 + len by omega]
    refine ⟨congrArg₂ _ hout hout', fun u hu => ?_, hnext'⟩
    rcases List.mem_append.mp hu with hu | hu
    · have hle : ((m + 1 : Nat) : ℚ) ≤ (m + 1 + len : Nat) := by exact_mod_cast Nat.le_add_right _ _
      exact (hlt u hu).trans_le hle
    · exact hlt' u hu

theorem setRatio_ratio {r : HermiteResampler} (c : ProcessCall) : (r.setRatio c.ratio).ratio = c.ratio := by
  show max (98 / 100) (min c.ratio (102 / 100)) = c.ratio
  rw [min_eq_left c.ratio_le, max_eq_right c.ratio_ge]

/-- Over any calls, the output is the curve of the input, seen at times that are a step apart each. -/
theorem Tracks.processAll {r : HermiteResampler} {x : Nat → ℚ} {m : Nat} {t : ℚ} (h : r.Tracks x m t)
    (calls : List ProcessCall) (steps : List ℚ)
    (hsteps : steps = (r.processAll x m calls).1.map fun o => 1 / o.2) :
    (r.processAll x m calls).1.map Prod.fst = (looks t steps).map (spline x) ∧
    (∀ u ∈ looks t steps, u + 2 < (m + (calls.map ProcessCall.len).sum : Nat)) ∧
    (r.processAll x m calls).2.Tracks x (m + (calls.map ProcessCall.len).sum) (arrives t steps) := by
  induction calls generalizing r m t steps with
  | nil =>
    obtain rfl : steps = [] := hsteps
    exact ⟨rfl, fun u hu => (by cases hu), h⟩
  | cons c calls ih =>
    have h₁ := h.setRatio c.ratio
    have hratio := setRatio_ratio (r := r) c
    have hproc : (r.setRatio c.ratio).process ((List.range' m c.len).map x) c.outLen =
        (r.setRatio c.ratio).feedAll ((List.range' m c.len).map x) := by
      apply h₁.ready.process_eq
      rw [hratio, List.length_map, List.length_range']
      exact c.room
    obtain ⟨hout, hlt, hnext⟩ := h₁.feedAll c.len _ rfl
    obtain ⟨hout', hlt', hnext'⟩ := ih hnext _ rfl
    have hall : r.processAll x m (c :: calls) =
        ((((r.setRatio c.ratio).feedAll ((List.range' m c.len).map x)).1.map fun y => (y, c.ratio)) ++
          (HermiteResampler.processAll x ((r.setRatio c.ratio).feedAll ((List.range' m c.len).map x)).2
            (m + c.len) calls).1,
        (HermiteResampler.processAll x ((r.setRatio c.ratio).feedAll ((List.range' m c.len).map x)).2
          (m + c.len) calls).2) := by
      rw [HermiteResampler.processAll, hproc]
    have hfirst : ((((r.setRatio c.ratio).feedAll ((List.range' m c.len).map x)).1.map
        fun y => (y, c.ratio)).map fun o => 1 / o.2) = List.replicate
          ((r.setRatio c.ratio).feedAll ((List.range' m c.len).map x)).1.length (r.setRatio c.ratio).step := by
      rw [List.map_map, step, hratio]
      show List.map (fun _ => 1 / c.ratio) _ = _
      exact List.map_const' ..
    rw [hall, List.map_append, hfirst] at hsteps
    rw [hall, hsteps, looks_append, arrives_append, List.map_append, List.map_append, List.map_cons,
      List.sum_cons, ← Nat.add_assoc]
    refine ⟨congrArg₂ _ ?_ hout', fun u hu => ?_, hnext'⟩
    · rw [List.map_map]
      exact (List.map_id' _).trans hout
    · rcases List.mem_append.mp hu with hu | hu
      · have hle : ((m + c.len : Nat) : ℚ) ≤ (m + c.len + (calls.map ProcessCall.len).sum : Nat) := by
          exact_mod_cast Nat.le_add_right _ _
        exact (hlt u hu).trans_le hle
      · exact hlt' u hu

end HermiteResampler

/-! ## Main result -/

/-- How many samples the calls feed. -/
def fedSamples (calls : List ProcessCall) : Nat := (calls.map ProcessCall.len).sum

/-- Over any calls on a fresh resampler, samples of a quadratic come out as its values at times that start
at 1 and move on by the step in force after each, up to and not beyond two samples before the end; and
with all ratios 1 the output is the input without its first sample and its last two. -/
theorem resampler_timing (calls : List ProcessCall) :
    (∀ a b c : ℚ,
      let outs := (HermiteResampler.new.processAll (fun n => a * n ^ 2 + b * n + c) 0 calls).1
      let steps := outs.map fun o => 1 / o.2
      outs.map Prod.fst = (looks 1 steps).map (fun t => a * t ^ 2 + b * t + c) ∧
      (∀ t ∈ looks 1 steps, t + 2 < fedSamples calls) ∧ fedSamples calls ≤ arrives 1 steps + 2) ∧
    ((∀ c ∈ calls, c.ratio = 1) → ∀ x : Nat → ℚ,
      (HermiteResampler.new.processAll x 0 calls).1.map Prod.fst =
        (List.range (fedSamples calls - 3)).map fun k => x (k + 1)) := by
  have hall : ∀ x : Nat → ℚ,
      let outs := (HermiteResampler.new.processAll x 0 calls).1
      let steps := outs.map fun o => 1 / o.2
      outs.map Prod.fst = (looks 1 steps).map (spline x) ∧
      (∀ t ∈ looks 1 steps, t + 2 < fedSamples calls) ∧ fedSamples calls ≤ arrives 1 steps + 2 := by
    intro x outs steps
    obtain ⟨hout, hlt, hend⟩ := (HermiteResampler.Tracks.new x).processAll calls steps rfl
    rw [Nat.zero_add] at hlt hend
    refine ⟨hout, hlt, ?_⟩
    have hphase := hend.phase
    have hphase0 := hend.ready.phase_nonneg
    have hmax : ((fedSamples calls : Nat) : ℚ) ≤ (max (calls.map ProcessCall.len).sum 3 : Nat) := by
      exact_mod_cast le_max_left _ _
    linarith
  have hratio : ∀ (x : Nat → ℚ) (r : HermiteResampler) (m : Nat) (calls : List ProcessCall),
      ∀ o ∈ (r.processAll x m calls).1, ∃ c ∈ calls, o.2 = c.ratio := by
    intro x r m calls
    induction calls generalizing r m with
    | nil => exact fun o ho => by cases ho
    | cons c calls ih =>
      intro o ho
      rcases List.mem_append.mp ho with ho | ho
      · obtain ⟨y, _, rfl⟩ := List.mem_map.mp ho
        exact ⟨c, List.mem_cons_self, rfl⟩
      · obtain ⟨c', hc', he⟩ := ih _ _ o ho
        exact ⟨c', List.mem_cons_of_mem c hc', he⟩
  constructor
  · intro a b c outs steps
    obtain ⟨hout, hlt, hend⟩ := hall fun n => a * n ^ 2 + b * n + c
    refine ⟨hout.trans (List.map_congr_left fun t ht => spline_quadratic a b c ?_), hlt, hend⟩
    refine le_of_mem_looks (fun s hs => ?_) ht
    obtain ⟨o, ho, rfl⟩ := List.mem_map.mp hs
    obtain ⟨c', -, he⟩ := hratio _ _ _ _ o ho
    rw [he]
    exact one_div_nonneg.mpr (by linarith [c'.ratio_ge])
  · intro hone x
    obtain ⟨hout, hlt, hend⟩ := hall x
    have hsteps : ((HermiteResampler.new.processAll x 0 calls).1.map fun o => 1 / o.2) =
        List.replicate (HermiteResampler.new.processAll x 0 calls).1.length 1 := by
      refine List.eq_replicate_iff.mpr ⟨List.length_map _, fun s hs => ?_⟩
      obtain ⟨o, ho, rfl⟩ := List.mem_map.mp hs
      obtain ⟨c, hc, he⟩ := hratio _ _ _ _ o ho
      rw [he, hone c hc, div_one]
    rw [hsteps, looks_replicate_one] at hout hlt
    rw [hsteps, arrives_replicate, mul_one] at hend
    generalize (HermiteResampler.new.processAll x 0 calls).1.length = count at hout hlt hend
    -- The times are 1, 2 and so on, as far as they are below the last two samples.
    have hcount : count = fedSamples calls - 3 := by
      have hge : fedSamples calls ≤ 1 + count + 2 := by exact_mod_cast hend
      by_cases h0 : count = 0
      · omega
      · have hlast := hlt (1 + ((count - 1 : Nat) : ℚ)) (List.mem_map.mpr
          ⟨count - 1, List.mem_range.mpr (by omega), rfl⟩)
        have hlt' : 1 + (count - 1) + 2 < fedSamples calls := by exact_mod_cast hlast
        omega
    rw [hout, hcount, List.map_map]
    refine List.map_congr_left fun k _ => ?_
    have hcast : (1 + (k : ℚ)) = ((k + 1 : Nat) : ℚ) := by
      push_cast
      ring
    show spline x (1 + (k : ℚ)) = x (k + 1)
    rw [hcast, spline_natCast]

/-- A call at unity with the smallest buffer. -/
def ProcessCall.unity (len : Nat) : ProcessCall :=
  { ratio := 1, len := len, outLen := len + 2
    ratio_ge := by norm_num
    ratio_le := by norm_num
    room := by push_cast; linarith }

/-- Ten samples in three calls, at ratio 1. -/
theorem resampler_timing_unity :
    (HermiteResampler.new.processAll (fun n => n ^ 3) 0 [.unity 2, .unity 5, .unity 3]).1.map Prod.fst =
      [1, 8, 27, 64, 125, 216, 343] := by
  refine ((resampler_timing _).2 (fun c hc => ?_) fun n => n ^ 3).trans (by decide +kernel)
  simp only [List.mem_cons, List.not_mem_nil, or_false] at hc
  rcases hc with rfl | rfl | rfl <;> rfl

end OnlineJam
