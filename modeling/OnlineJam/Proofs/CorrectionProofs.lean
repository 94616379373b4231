import OnlineJam.Audio.Codec
import OnlineJam.Core.Correction
import OnlineJam.Lib.Latch
import OnlineJam.Proofs.RestartProofs

/-!
# Proofs: what a correction goes by

From moment to moment a correction is only latched on the side of the target that it is for, kept, or
taken. Whether it is still called for is not looked at when it is carried out.
-/

namespace OnlineJam

open OnlineJam.Lib

variable {n : Nat} {σ : Type}

/-! ## From moment to moment -/

/-- What may become of the latched correction. -/
structure Moment.Moves (m m' : Moment) : Prop where
  deadband : m'.controller.deadband = m.controller.deadband
  pending : m'.controller.pending = m.controller.pending ∨ m'.controller.pending = .none ∨
    (m.controller.pending = .none ∧ m'.Calls m'.controller.deadband m'.controller.pending)

/-- The target moves within its bounds, and nothing else that a correction goes by. -/
theorem PlayoutController.evaluate_keeps (c : PlayoutController) (jitterUs : ℚ) :
    (c.evaluate jitterUs).deadband = c.deadband ∧ (c.evaluate jitterUs).pending = c.pending := by
  rw [evaluate]
  dsimp only
  split <;> exact ⟨rfl, rfl⟩

theorem PlayoutController.postPop_keeps (c : PlayoutController) (hit : Bool) (jitterUs : ℚ) :
    (c.postPop hit jitterUs).2.deadband = c.deadband ∧
    ((c.postPop hit jitterUs).2.pending = c.pending ∨
      ((c.postPop hit jitterUs).1 = true ∧ (c.postPop hit jitterUs).2.pending = .none)) := by
  rw [postPop]
  cases hit with
  | true =>
    obtain ⟨h1, h2⟩ := PlayoutController.evaluate_keeps { c with consecutiveMisses := 0 } jitterUs
    exact ⟨h1, Or.inl h2⟩
  | false =>
    rw [if_neg Bool.false_ne_true]
    dsimp only
    split
    · exact ⟨rfl, Or.inr ⟨rfl, rfl⟩⟩
    · obtain ⟨h1, h2⟩ := PlayoutController.evaluate_keeps
        { c with consecutiveMisses := c.consecutiveMisses + 1 } jitterUs
      exact ⟨h1, Or.inl h2⟩

/-- A correction is latched when none is, on the right side of the target. -/
theorem PlayoutController.observeDepth_moves (c : PlayoutController) (m : Moment)
    (hdeadband : c.deadband = m.controller.deadband) (hpending : c.pending = m.controller.pending)
    (depth : Int) : m.Moves ⟨c.observeDepth depth, depth⟩ := by
  rw [observeDepth]
  split_ifs with hkeep habove hbelow
  · exact ⟨hdeadband, Or.inl hpending⟩
  · rw [not_or, not_not] at hkeep
    exact ⟨hdeadband, Or.inr (Or.inr ⟨hpending.symm.trans hkeep.1, habove⟩)⟩
  · rw [not_or, not_not] at hkeep
    exact ⟨hdeadband, Or.inr (Or.inr ⟨hpending.symm.trans hkeep.1, hbelow⟩)⟩
  · exact ⟨hdeadband, Or.inl hpending⟩

namespace Playback

variable (decode : σ → Option Bytes → Samples n → Bool × Samples n × σ)

/-- One pull. -/
theorem pullDecoded_moves (p : Playback n σ) : p.moment.Moves (p.pullDecoded decode).2.moment := by
  have hcontroller := (p.decodeNext_keeps decode).2.1
  rw [pullDecoded]
  generalize p.decodeNext decode = r at hcontroller ⊢
  obtain ⟨hit, q⟩ := r
  dsimp only at hcontroller ⊢
  obtain ⟨hdeadband, hpending⟩ := q.playout.controller.postPop_keeps hit q.log.buffer.stats.jitterUs
  rw [hcontroller] at hdeadband hpending ⊢
  split
  · rename_i hinterrupted
    rcases hpending with hpending | ⟨-, hpending⟩
    · exact ⟨hdeadband, Or.inl hpending⟩
    · exact ⟨hdeadband, Or.inr (Or.inl hpending)⟩
  · rename_i hlive
    rcases hpending with hpending | ⟨hno, -⟩
    · exact PlayoutController.observeDepth_moves _ p.moment hdeadband hpending _
    · exact absurd hno hlive

/-- The pulls that fill the FIFO, and the playout they leave. -/
theorem pulls_walk (fuel : Nat) (p : Playback n σ) :
    Walk Moment.Moves p.moment ((pulls decode fuel p).map fun r => r.2.moment)
      (fillStaging decode fuel p).2.moment := by
  induction fuel generalizing p with
  | zero => exact .nil
  | succ fuel ih =>
    rw [pulls, fillStaging]
    by_cases hlt : p.playout.staging.len < n
    · have hmoves := p.pullDecoded_moves decode
      rw [if_pos hlt, if_pos hlt]
      generalize p.pullDecoded decode = r at hmoves ⊢
      obtain ⟨hit, q⟩ := r
      cases hit with
      | none => exact .single hmoves
      | some hit => exact (Walk.single hmoves).append (ih q.stage)
    · rw [if_neg hlt, if_neg hlt]
      exact .nil

/-- Carrying out a correction takes it. -/
theorem applyStepAdjustment_moves (p : Playback n σ) (out : Samples n) :
    p.moment.Moves (p.applyStepAdjustment out).moment := by
  rw [applyStepAdjustment]
  split
  · rw [PlayoutController.takeAdjustment]
    dsimp only
    split <;> exact ⟨rfl, Or.inr (Or.inl rfl)⟩
  · exact ⟨rfl, Or.inl rfl⟩

/-- Getting ready to play takes nothing away. -/
theorem prime_moves (p : Playback n σ) : p.moment.Moves p.prime.2.moment := by
  by_cases hgo : p.Goes
  · rw [prime_goes hgo, primed]
    split <;> exact ⟨rfl, Or.inl rfl⟩
  · rw [prime_waits hgo]
    exact ⟨rfl, Or.inl rfl⟩

/-! ## The moments of a run -/

/-- The moments of a tick that is to play, up to the last pull. -/
theorem pulled_resampled {p : Playback n σ} (hgo : p.prime.1 = true)
    (hdrift : p.playout.driftEnabled = true) : Walk Moment.Moves p.moment (p.pulled decode)
      (fillStaging decode fillRounds p.prime.2.rated).2.moment := by
  rw [pulled, if_pos hgo, if_pos hdrift]
  exact (Walk.single p.prime_moves).append (pulls_walk decode fillRounds p.prime.2.rated)

theorem pulled_stepped {p : Playback n σ} (hgo : p.prime.1 = true)
    (hdrift : ¬ p.playout.driftEnabled = true) :
    Walk Moment.Moves p.moment (p.pulled decode) (p.prime.2.pullDecoded decode).2.moment := by
  rw [pulled, if_pos hgo, if_neg hdrift]
  exact (Walk.single p.prime_moves).append (.single (p.prime.2.pullDecoded_moves decode))

/-- A correction goes by the moment of the last pull. -/
theorem adjusting_spec {p q : Playback n σ} {out frame : Samples n}
    (h : p.adjusting decode out = some (q, frame)) :
    Walk Moment.Moves p.moment (p.pulled decode) q.moment ∧
    p.tick decode out = ((true, frame), q.applyStepAdjustment frame) := by
  rw [adjusting] at h
  rw [tick_eq]
  by_cases hgo : p.prime.1 = true
  · rw [if_pos hgo] at h ⊢
    by_cases hdrift : p.playout.driftEnabled = true
    · have hwalk := pulled_resampled decode hgo hdrift
      rw [if_pos hdrift] at h ⊢
      rw [tickResampled_eq]
      generalize fillStaging decode fillRounds p.prime.2.rated = r at h hwalk ⊢
      obtain ⟨live, r⟩ := r
      dsimp only at h hwalk ⊢
      by_cases hlive : live = true
      · rw [if_pos hlive] at h ⊢
        obtain ⟨rfl, rfl⟩ := Prod.mk.inj (Option.some.inj h)
        exact ⟨hwalk, rfl⟩
      · rw [if_neg hlive] at h
        cases h
    · have hwalk := pulled_stepped decode hgo hdrift
      rw [if_neg hdrift] at h ⊢
      rw [tickStepped]
      generalize p.prime.2.pullDecoded decode = r at h hwalk ⊢
      obtain ⟨hit, r⟩ := r
      cases hit with
      | none => cases h
      | some hit =>
        obtain ⟨rfl, rfl⟩ := Prod.mk.inj (Option.some.inj h)
        exact ⟨hwalk, rfl⟩
  · rw [if_neg hgo] at h
    cases h

/-- Without a correction there is an outage, or nothing to play. -/
theorem adjusting_none {p : Playback n σ} {out : Samples n} (h : p.adjusting decode out = none) :
    Walk Moment.Moves p.moment (p.pulled decode ++ [(p.tick decode out).2.moment])
      (p.tick decode out).2.moment := by
  rw [adjusting] at h
  rw [tick_eq]
  by_cases hgo : p.prime.1 = true
  · rw [if_pos hgo] at h
    rw [if_pos hgo]
    by_cases hdrift : p.playout.driftEnabled = true
    · have hwalk := pulled_resampled decode hgo hdrift
      rw [if_pos hdrift] at h
      have hlive : (fillStaging decode fillRounds p.prime.2.rated).1 = false := by
        generalize fillStaging decode fillRounds p.prime.2.rated = r at h
        obtain ⟨live, r⟩ := r
        cases live with
        | false => rfl
        | true => cases h
      rw [if_pos hdrift, tickResampled_outage decode hlive]
      exact .snoc hwalk ⟨rfl, Or.inr (Or.inl rfl)⟩
    · have hwalk := pulled_stepped decode hgo hdrift
      rw [if_neg hdrift] at h
      rw [if_neg hdrift, tickStepped]
      generalize p.prime.2.pullDecoded decode = r at h hwalk ⊢
      obtain ⟨hit, r⟩ := r
      cases hit with
      | none => exact .snoc hwalk ⟨rfl, Or.inl rfl⟩
      | some hit => cases h
  · rw [if_neg hgo, pulled, if_neg hgo]
    exact .single p.prime_moves

theorem tick_walk (p : Playback n σ) (out : Samples n) :
    Walk Moment.Moves p.moment (p.pulled decode ++ [(p.tick decode out).2.moment])
      (p.tick decode out).2.moment := by
  cases h : p.adjusting decode out with
  | none => exact adjusting_none decode h
  | some r =>
    obtain ⟨hwalk, htick⟩ := adjusting_spec decode h
    rw [htick]
    exact .snoc hwalk (r.1.applyStepAdjustment_moves r.2)

/-- What happens outside a tick latches nothing. -/
theorem meet_walk (p : Playback n σ) (e : StreamEvent n) :
    Walk Moment.Moves p.moment (p.eventMoments decode e) (p.meet decode e).moment := by
  match e with
  | .play (.tick out) => exact p.tick_walk decode out
  | .play (.arrive ..) => exact .single ⟨rfl, Or.inl rfl⟩
  | .resetStream => exact .single ⟨rfl, Or.inr (Or.inl rfl)⟩
  | .resetBuffer => exact .single ⟨rfl, Or.inl rfl⟩

theorem course_walk (p : Playback n σ) (es : List (StreamEvent n)) :
    Walk Moment.Moves p.moment (p.moments decode es) (p.course decode es).moment := by
  induction es generalizing p with
  | nil => exact .nil
  | cons e es ih => exact (p.meet_walk decode e).append (ih (p.meet decode e))

/-! ## What is carried out -/

/-- What is done about the latched correction at a quiet moment. -/
theorem applyStepAdjustment_carries {p : Playback n σ} {out : Samples n} {a : Adjust}
    (hquiet : isQuiet out = true) (hpending : p.playout.controller.pending = a) :
    (p.applyStepAdjustment out).playout.controller.pending = .none ∧
    (a = .dropOne → (p.applyStepAdjustment out).log = p.log.step .skip) ∧
    (a = .insertOne → (p.applyStepAdjustment out).playout.insertPending = true) := by
  rw [applyStepAdjustment, if_pos hquiet, PlayoutController.takeAdjustment]
  dsimp only
  rw [hpending]
  cases a with
  | none => exact ⟨rfl, fun h => Adjust.noConfusion h, fun h => Adjust.noConfusion h⟩
  | dropOne => exact ⟨rfl, fun _ => rfl, fun h => Adjust.noConfusion h⟩
  | insertOne => exact ⟨rfl, fun h => Adjust.noConfusion h, fun _ => rfl⟩

/-- At first nothing is latched, and there is a deadband. -/
theorem new_moment (decoder : σ) (sampleRate : Nat) (jitterFixed : Option Int) (driftCorrection : Bool) :
    (Playback.new (n := n) decoder sampleRate jitterFixed driftCorrection).moment.controller.pending =
      .none ∧
    0 < (Playback.new (n := n) decoder sampleRate jitterFixed driftCorrection).moment.controller.deadband := by
  have hwide : (0 : Int) < 3 := by omega
  cases jitterFixed <;> cases driftCorrection
  · exact ⟨rfl, Int.zero_lt_one⟩
  · exact ⟨rfl, hwide⟩
  · exact ⟨rfl, Int.zero_lt_one⟩
  · exact ⟨rfl, hwide⟩

end Playback

/-- A latched correction was called for when it was latched. -/
theorem Moment.Moves.calls {m m' : Moment} {a : Adjust} (h : m.Moves m') (ha : a ≠ .none)
    (hprior : ¬ m.controller.pending = a) (hlatch : m'.controller.pending = a) :
    m.controller.pending = .none ∧ m'.Calls m'.controller.deadband a := by
  rcases h.pending with hkept | hnone | ⟨hnone, hcalls⟩
  · exact absurd (hkept.symm.trans hlatch) hprior
  · exact absurd (hlatch.symm.trans hnone) ha
  · exact ⟨hnone, hlatch ▸ hcalls⟩

theorem Moment.Calls.mono {m : Moment} {margin margin' : Int} {a : Adjust} (h : m.Calls margin a)
    (hle : margin' ≤ margin) : m.Calls margin' a := by
  cases a with
  | none => trivial
  | dropOne =>
    unfold Calls at h ⊢
    omega
  | insertOne =>
    unfold Calls at h ⊢
    omega

/-- Whatever correction is carried out was latched at a pull after which the depth was away from the target
by more than the deadband, on the side that the correction is for; then none was latched, and this one has
been ever since. -/
theorem Playback.correction_latched (decode : σ → Option Bytes → Samples n → Bool × Samples n × σ)
    (decoder : σ) (sampleRate : Nat) (jitterFixed : Option Int) (driftCorrection : Bool)
    (es : List (StreamEvent n)) (out frame : Samples n) (q : Playback n σ) (a : Adjust) :
    let start : Playback n σ := .new decoder sampleRate jitterFixed driftCorrection
    let p := start.course decode es
    p.adjusting decode out = some (q, frame) → isQuiet frame = true →
    q.playout.controller.pending = a → a ≠ .none →
    (p.tick decode out).1 = (true, frame) ∧ (p.tick decode out).2.playout.controller.pending = .none ∧
    (a = .dropOne → (p.tick decode out).2.log = q.log.step .skip) ∧
    (a = .insertOne → (p.tick decode out).2.playout.insertPending = true) ∧
    ∃ before prior latch after,
      start.moment :: (start.moments decode es ++ p.pulled decode) = before ++ prior :: latch :: after ∧
      prior.controller.pending = .none ∧ latch.Calls latch.controller.deadband a ∧ latch.Calls 0 a ∧
      (∀ m ∈ latch :: after, m.controller.pending = a) ∧
      (latch :: after).getLast? = some q.moment := by
  intro start p hadjusting hquiet hpending ha
  obtain ⟨hnone, hdeadband⟩ :=
    Playback.new_moment (n := n) decoder sampleRate jitterFixed driftCorrection
  obtain ⟨hpulled, htick⟩ := adjusting_spec decode hadjusting
  have hwalk := (start.course_walk decode es).append hpulled
  obtain ⟨htaken, hdrop, hinsert⟩ := applyStepAdjustment_carries hquiet hpending
  rw [htick]
  refine ⟨rfl, htaken, hdrop, hinsert, ?_⟩
  obtain ⟨before, prior, latch, after, hsplit, hprior, hmoves, hsince, hlast⟩ :=
    hwalk.latched (fun m => m.controller.pending = a)
      (fun h => ha (h.symm.trans hnone)) hpending
  obtain ⟨hfree, hcalls⟩ := hmoves.calls ha hprior (hsince latch (List.mem_cons_self ..))
  -- the deadband is the one of the start
  have hband : 0 < latch.controller.deadband := by
    have hall := (hwalk.invariant (p := fun m : Moment => 0 < m.controller.deadband) hdeadband
      (fun t u ht htu => htu.deadband.symm ▸ ht)).2
    have hmem : latch ∈ before ++ prior :: latch :: after := by simp
    rw [← hsplit] at hmem
    rcases List.mem_cons.mp hmem with rfl | hmem
    · exact hdeadband
    · exact hall latch hmem
  exact ⟨before, prior, latch, after, hsplit, hfree, hcalls, hcalls.mono hband.le, hsince, hlast⟩

/-! ## A correction that comes too late -/

/-- A playout in adaptive mode, as it is at first. -/
abbrev adaptive : Playback 120 Unit := .new () 48000 none false

/-- Five frames arrive at once, the last one silent, and the first four are played. -/
def tooLate : List (StreamEvent 120) :=
  [.play (.arrive 0 0 (List.replicate 240 64) 0), .play (.arrive 1 0 (List.replicate 240 64) 0),
    .play (.arrive 2 0 (List.replicate 240 64) 0), .play (.arrive 3 0 (List.replicate 240 64) 0),
    .play (.arrive 4 0 (List.replicate 240 0) 0), .play (.tick fun _ => 0), .play (.tick fun _ => 0),
    .play (.tick fun _ => 0), .play (.tick fun _ => 0)]

/-- What the last tick of it corrects: by then the buffer is empty. -/
theorem tooLate_adjusting : ∃ q frame,
    (adaptive.course decodePcmS16 tooLate).adjusting decodePcmS16 (fun _ => 0) =
      some (q, frame) ∧ isQuiet frame = true ∧ q.playout.controller.pending = .dropOne ∧
    q.log.buffer.depth = 0 ∧ q.playout.controller.target = 2 := by
  have hrun : ((adaptive.course decodePcmS16 tooLate).adjusting decodePcmS16 fun _ => 0).map
      (fun r => (isQuiet r.2, r.1.playout.controller.pending, r.1.log.buffer.depth,
        r.1.playout.controller.target)) = some (true, .dropOne, 0, 2) := by decide +kernel
  obtain ⟨⟨q, frame⟩, hadjusting, hr⟩ := Option.map_eq_some_iff.mp hrun
  obtain ⟨hquiet, hpending, hdepth, htarget⟩ : _ ∧ _ ∧ _ ∧ _ := by
    simpa only [Prod.mk.injEq] using hr
  exact ⟨q, frame, hadjusting, hquiet, hpending, hdepth, htarget⟩

/-- The frame is dropped for what was the case three frames ago. -/
theorem Playback.correction_latched_tooLate : ∃ q frame,
    (adaptive.course decodePcmS16 tooLate).adjusting decodePcmS16 (fun _ => 0) =
      some (q, frame) ∧
    ∃ before prior latch after,
      adaptive.moment ::
        (adaptive.moments decodePcmS16 tooLate ++
          (adaptive.course decodePcmS16 tooLate).pulled decodePcmS16) =
        before ++ prior :: latch :: after ∧ latch.Calls 0 .dropOne := by
  obtain ⟨q, frame, hadjusting, hquiet, hpending, -, -⟩ := tooLate_adjusting
  obtain ⟨-, -, -, -, before, prior, latch, after, hsplit, -, -, hcalls, -, -⟩ :=
    Playback.correction_latched decodePcmS16 () 48000 none false tooLate (fun _ => 0) frame q .dropOne
      hadjusting hquiet hpending (by decide)
  exact ⟨q, frame, hadjusting, before, prior, latch, after, hsplit, hcalls⟩

/-- A frame may be dropped although the depth is not above the target any more. -/
theorem Playback.drop_below_target : ¬ ∀ (es : List (StreamEvent 120)) (out frame : Samples 120)
    (q : Playback 120 Unit),
    (adaptive.course decodePcmS16 es).adjusting decodePcmS16 out =
      some (q, frame) → isQuiet frame = true → q.playout.controller.pending = .dropOne →
    q.playout.controller.target < q.log.buffer.depth := by
  intro h
  obtain ⟨q, frame, hadjusting, hquiet, hpending, hdepth, htarget⟩ := tooLate_adjusting
  have hlt := h tooLate (fun _ => 0) frame q hadjusting hquiet hpending
  rw [hdepth, htarget] at hlt
  omega

end OnlineJam
