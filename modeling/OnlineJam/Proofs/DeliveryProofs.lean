import OnlineJam.Audio.Codec
import OnlineJam.Proofs.PlayoutProofs

/-!
# Proofs: what the drift-corrected playout delivers

The FIFO between the resampler and the output has room for every frame, and two frames always fill it, so
that each tick takes one frame's worth of samples out and none gets lost on the way.
-/

namespace OnlineJam

variable {n : Nat} {σ : Type}

/-- The correction moves by at most the slew limit. -/
theorem DriftController.update_slew {d : DriftController} (h : 0 ≤ d.slewPpm) (e : ℚ) :
    |(d.update e).2.currentPpm - d.currentPpm| ≤ d.slewPpm := by
  show |d.currentPpm + clamp d.slewPpm _ - d.currentPpm| ≤ d.slewPpm
  rw [add_sub_cancel_left]
  exact abs_le.mpr ⟨le_clamp, clamp_le h⟩

namespace Playback

/-- A playout with drift correction on, between any two events. -/
structure Flows (p : Playback n σ) : Prop where
  fed : Fed p
  bounded : p.playout.drift.Bounded
  slew : p.playout.drift.slewPpm = 1 / 2
  driftEnabled : p.playout.driftEnabled = true

theorem Flows.new (decoder : σ) (sampleRate : Nat) (jitterFixed : Option Int) :
    Flows (Playback.new (n := n) decoder sampleRate jitterFixed true) :=
  ⟨⟨rfl, HermiteResampler.Ready.new⟩, DriftController.Bounded.new, rfl, rfl⟩

theorem Flows.of_keeps {p p' : Playback n σ} (h : Flows p) (hk : Keeps p p') : Flows p' :=
  ⟨⟨by rw [hk.staging]; exact h.fed.capacity, by rw [hk.resampler]; exact h.fed.ready⟩,
    by rw [hk.drift]; exact h.bounded, by rw [hk.drift]; exact h.slew,
    by rw [hk.driftEnabled]; exact h.driftEnabled⟩

theorem Flows.stage {p : Playback n σ} (h : Flows p) (hn : n ≤ 240)
    (hlen : p.playout.staging.len < n) : Flows p.stage :=
  ⟨(stage_supply h.fed hn hlen).1, h.bounded, h.slew, h.driftEnabled⟩

theorem Flows.rated {p : Playback n σ} (h : Flows p) : Flows p.rated :=
  ⟨⟨h.fed.capacity, h.fed.ready.setRatio _⟩, (h.bounded.update _).1, h.slew, h.driftEnabled⟩

theorem Flows.resetStream {p : Playback n σ} (h : Flows p) :
    Flows { p with playout := p.playout.resetStream } :=
  ⟨⟨h.fed.capacity, HermiteResampler.Ready.new.setRatio _⟩, h.bounded, h.slew, h.driftEnabled⟩

theorem Flows.unstaged {p : Playback n σ} (h : Flows p) : Flows p.unstaged :=
  ⟨⟨h.fed.capacity, h.fed.ready⟩, h.bounded, h.slew, h.driftEnabled⟩

/-- A correction of the depth leaves the samples alone. -/
theorem applyStepAdjustment_keeps (p : Playback n σ) (out : Samples n) :
    (p.applyStepAdjustment out).playout.staging = p.playout.staging ∧
    (p.applyStepAdjustment out).playout.resampler = p.playout.resampler ∧
    (p.applyStepAdjustment out).playout.drift = p.playout.drift ∧
    (p.applyStepAdjustment out).playout.driftEnabled = p.playout.driftEnabled := by
  unfold applyStepAdjustment
  split
  · dsimp only
    split <;> exact ⟨rfl, rfl, rfl, rfl⟩
  · exact ⟨rfl, rfl, rfl, rfl⟩

theorem Flows.adjust {p : Playback n σ} (h : Flows p) (out : Samples n) :
    Flows (p.applyStepAdjustment out) := by
  obtain ⟨h1, h2, h3, h4⟩ := p.applyStepAdjustment_keeps out
  exact ⟨⟨by rw [h1]; exact h.fed.capacity, by rw [h2]; exact h.fed.ready⟩, by rw [h3]; exact h.bounded,
    by rw [h3]; exact h.slew, by rw [h4]; exact h.driftEnabled⟩

variable (decode : σ → Option Bytes → Samples n → Bool × Samples n × σ)

/-! ## The loop -/

/-- Whatever the loop pulls goes through in full: it is put into the FIFO after what was there. -/
theorem Flows.fill {p : Playback n σ} (h : Flows p) (hn : n ≤ 240) (fuel : Nat) :
    Flows (fillStaging decode fuel p).2 ∧
    (fillStaging decode fuel p).2.playout.drift = p.playout.drift ∧
    (∀ r ∈ pulls decode fuel p, Flows r.2 ∧ r.2.playout.staging.len < n) ∧
    ((fillStaging decode fuel p).1 = true ↔ ∀ r ∈ pulls decode fuel p, r.1 ≠ none) ∧
    ((fillStaging decode fuel p).1 = true → (fillStaging decode fuel p).2.playout.staging.samples =
      p.playout.staging.samples ++ (pulls decode fuel p).flatMap fun r => r.2.resampled.1) := by
  induction fuel generalizing p with
  | zero => simp [fillStaging, pulls, h]
  | succ fuel ih =>
    rw [fillStaging, pulls]
    by_cases hlt : p.playout.staging.len < n
    · have hkeeps := p.pullDecoded_keeps decode
      rw [if_pos hlt, if_pos hlt]
      generalize p.pullDecoded decode = r at hkeeps ⊢
      obtain ⟨hit, q⟩ := r
      dsimp only at hkeeps ⊢
      have hq := h.of_keeps hkeeps
      have hqlt : q.playout.staging.len < n := by rw [hkeeps.staging]; exact hlt
      cases hit with
      | none =>
        simp only [Option.isSome_none, Bool.false_eq_true, if_false, List.mem_singleton, forall_eq,
          false_iff, false_implies, and_true]
        exact ⟨hq, hkeeps.drift, ⟨hq, hqlt⟩, fun hne => hne rfl⟩
      | some hit =>
        obtain ⟨i1, i2, i3, i4, i5⟩ := ih (hq.stage hn hqlt)
        simp only [Option.isSome_some, if_true, List.mem_cons, forall_eq_or_imp, List.flatMap_cons]
        refine ⟨i1, i2.trans hkeeps.drift, ⟨⟨hq, hqlt⟩, i3⟩, ?_, fun hlive => ?_⟩
        · simp only [ne_eq, reduceCtorEq, not_false_eq_true, true_and]
          exact i4
        · obtain ⟨-, -, hstage⟩ := stage_whole hq.fed hn hqlt
          rw [i5 hlive, hstage, ← hkeeps.staging, List.append_assoc]
    · rw [if_neg hlt, if_neg hlt]
      simp [h]

/-- The loop needs no more pulls than the supply asks for. -/
theorem Fed.pulls_le {p : Playback n σ} (h : Fed p) (hn : n ≤ 240) (k : Nat)
    (hk : n * p.playout.resampler.step + 3 ≤ k * n + p.supply) (fuel : Nat) :
    (pulls decode fuel p).length ≤ k := by
  induction fuel generalizing p k with
  | zero => exact Nat.zero_le _
  | succ fuel ih =>
    rw [pulls]
    by_cases hlt : p.playout.staging.len < n
    · obtain ⟨hfed, hstep, hsupply⟩ := h.round decode hn hlt
      rw [if_pos hlt]
      cases k with
      | zero =>
        rw [Nat.cast_zero, zero_mul, zero_add] at hk
        exact absurd (h.full hk) (Nat.not_le.mpr hlt)
      | succ k =>
        have hrest := ih hfed k (by
          rw [hstep, hsupply]
          push_cast at hk
          linarith)
        dsimp only
        split
        · exact Nat.succ_le_succ hrest
        · exact Nat.succ_le_succ (Nat.zero_le _)
    · rw [if_neg hlt]
      exact Nat.zero_le _

/-- Two frames are enough, even with the three samples that warm the resampler up. -/
theorem Fed.two_frames {p : Playback n σ} (h : Fed p) (hn : 5 ≤ n) :
    n * p.playout.resampler.step + 3 ≤ (2 : Nat) * n + p.supply := by
  obtain ⟨hlow, hhigh⟩ := h.ready.step_bounds
  have hlen : 0 ≤ p.playout.staging.len * p.playout.resampler.step :=
    mul_nonneg (Nat.cast_nonneg _) (by linarith)
  have hphase := h.ready.phase_lt
  have hprimed : (0 : ℚ) ≤ p.playout.resampler.primed := Nat.cast_nonneg _
  have hn' : (5 : ℚ) ≤ n := by exact_mod_cast hn
  have hmul := mul_le_mul_of_nonneg_left hhigh (show (0 : ℚ) ≤ n by linarith)
  rw [supply]
  push_cast
  linarith

/-! ## One tick -/

/-- What a tick of a primed playout comes to. -/
structure Delivers (p : Playback n σ) (out : Samples n) : Prop where
  /-- The loop ends after at most two pulls. -/
  rounds : ∀ fuel, (pulls decode fuel p.rated).length ≤ 2
  /-- The output buffer of the resampler is never too small, nor is the FIFO. -/
  whole : ∀ r ∈ pulls decode fillRounds p.rated, r.1 ≠ none →
    r.2.playout.resampler.process (List.ofFn r.2.playout.decodeBuf) (maxFrameSamples + resampleSlack) =
      r.2.resampled ∧
    (r.2.playout.staging.push r.2.resampled.1).1 = 0
  /-- Only an outage keeps a tick from playing. -/
  live : (p.tickResampled decode out).1.1 = true ↔ ∀ r ∈ pulls decode fillRounds p.rated, r.1 ≠ none
  /-- A frame's worth of samples is popped, and those behind it stay. -/
  pops : (p.tickResampled decode out).1.1 = true → ∃ samples,
    ((fillStaging decode fillRounds p.rated).2.playout.staging.pop n).1 = some samples ∧
    samples.length = n ∧ List.ofFn (p.tickResampled decode out).1.2 = samples ∧
    p.playout.staging.samples ++ (pulls decode fillRounds p.rated).flatMap (fun r => r.2.resampled.1) =
      samples ++ (p.tickResampled decode out).2.playout.staging.samples

/-- The loop leaves a frame's worth of samples. -/
theorem Flows.full {p : Playback n σ} (h : Flows p) (hn : 5 ≤ n) (hmax : n ≤ 240)
    (hlive : (fillStaging decode fillRounds p.rated).1 = true) :
    n ≤ (fillStaging decode fillRounds p.rated).2.playout.staging.len := by
  refine fillStaging_full decode hmax fillRounds h.rated.fed ((h.rated.fed.two_frames hn).trans ?_) hlive
  have hn0 : (0 : ℚ) ≤ n := Nat.cast_nonneg n
  push_cast
  linarith

theorem Flows.delivers {p : Playback n σ} (h : Flows p) (hn : 5 ≤ n) (hmax : n ≤ 240) (out : Samples n) :
    Delivers decode p out := by
  obtain ⟨-, -, hpulls, hlive, hsamples⟩ := h.rated.fill decode hmax fillRounds
  have htwo := h.rated.fed.two_frames hn
  have hresult : (p.tickResampled decode out).1.1 = (fillStaging decode fillRounds p.rated).1 := by
    cases hfill : (fillStaging decode fillRounds p.rated).1 with
    | false => rw [tickResampled_outage decode hfill]
    | true => rw [tickResampled_live decode hfill (h.full decode hn hmax hfill)]
  refine ⟨h.rated.fed.pulls_le decode hmax 2 htwo, fun r hr _ => ?_, ?_, fun htick => ?_⟩
  · obtain ⟨hflows, hlt⟩ := hpulls r hr
    obtain ⟨hprocess, hpush, -⟩ := stage_whole hflows.fed hmax hlt
    exact ⟨hprocess, hpush⟩
  · rw [hresult]
    exact hlive
  · rw [hresult] at htick
    have hlen := h.full decode hn hmax htick
    have hall := hsamples htick
    rw [tickResampled_live decode htick hlen]
    generalize (fillStaging decode fillRounds p.rated).2 = q at hlen hall ⊢
    have htake : (q.playout.staging.samples.take n).length = n := List.length_take_of_le hlen
    refine ⟨q.playout.staging.samples.take n, ?_, htake, ?_, ?_⟩
    · rw [SampleFifo.pop, if_neg (Nat.not_lt.mpr hlen)]
    · refine List.ext_getElem (by rw [List.length_ofFn, htake]) fun i h1 h2 => ?_
      rw [List.getElem_ofFn]
      exact (List.getElem_eq_getD 0).symm
    · dsimp only
      rw [(q.unstaged.applyStepAdjustment_keeps _).1]
      exact hall.symm.trans (List.take_append_drop n q.playout.staging.samples).symm

theorem Flows.tickResampled {p : Playback n σ} (h : Flows p) (hn : 5 ≤ n) (hmax : n ≤ 240)
    (out : Samples n) : Flows (p.tickResampled decode out).2 ∧
      (p.tickResampled decode out).2.playout.drift = p.rated.playout.drift := by
  obtain ⟨hflows, hdrift, -, -, -⟩ := h.rated.fill decode hmax fillRounds
  cases hfill : (fillStaging decode fillRounds p.rated).1 with
  | false =>
    rw [tickResampled_outage decode hfill]
    exact ⟨hflows.resetStream, hdrift⟩
  | true =>
    rw [tickResampled_live decode hfill (h.full decode hn hmax hfill)]
    exact ⟨hflows.unstaged.adjust _, (applyStepAdjustment_keeps _ _).2.2.1.trans hdrift⟩

theorem Flows.prime {p : Playback n σ} (h : Flows p) : Flows p.prime.2 :=
  ⟨⟨h.fed.capacity, h.fed.ready⟩, h.bounded, h.slew, h.driftEnabled⟩

/-- A tick that plays, and one that only primes. -/
theorem Flows.tick {p : Playback n σ} (h : Flows p) (hn : 5 ≤ n) (hmax : n ≤ 240) (out : Samples n) :
    Flows (p.tick decode out).2 ∧
    |(p.tick decode out).2.playout.drift.currentPpm - p.playout.drift.currentPpm| ≤ 1 / 2 := by
  rw [tick_eq]
  split
  · obtain ⟨hflows, hdrift⟩ := h.prime.tickResampled decode hn hmax out
    rw [if_pos h.driftEnabled, hdrift]
    have hslew := DriftController.update_slew (d := p.playout.drift) (by rw [h.slew]; norm_num)
      ((p.log.buffer.depth - p.prime.2.playout.controller.target : Int) : ℚ)
    rw [h.slew] at hslew
    exact ⟨hflows, hslew⟩
  · refine ⟨h.prime, ?_⟩
    show |p.playout.drift.currentPpm - p.playout.drift.currentPpm| ≤ 1 / 2
    rw [sub_self, abs_zero]
    norm_num

/-! ## Runs -/

theorem Flows.meet {p : Playback n σ} (h : Flows p) (hn : 5 ≤ n) (hmax : n ≤ 240) (e : StreamEvent n) :
    Flows (p.meet decode e) := by
  cases e with
  | play e =>
    cases e with
    | arrive seq timestamp payload jitterUs =>
      exact ⟨⟨h.fed.capacity, h.fed.ready⟩, h.bounded, h.slew, h.driftEnabled⟩
    | tick out => exact (h.tick decode hn hmax out).1
  | resetStream => exact h.resetStream
  | resetBuffer => exact ⟨⟨h.fed.capacity, h.fed.ready⟩, h.bounded, h.slew, h.driftEnabled⟩

theorem Flows.course {p : Playback n σ} (h : Flows p) (hn : 5 ≤ n) (hmax : n ≤ 240)
    (es : List (StreamEvent n)) : Flows (p.course decode es) := by
  induction es generalizing p with
  | nil => exact h
  | cons e es ih => exact ih (h.meet decode hn hmax e)

end Playback

/-! ## Main result -/

open Playback

/-- In every run with drift correction on, the correction stays within 500 ppm and moves by at most half a
ppm in a tick, and a primed tick delivers: it loses no sample, pulls at most twice, and pops a frame's
worth of samples unless there is an outage. -/
theorem resampled_delivers (decode : σ → Option Bytes → Samples n → Bool × Samples n × σ) (hn : 5 ≤ n)
    (hmax : n ≤ maxFrameSamples) (decoder : σ) (sampleRate : Nat) (jitterFixed : Option Int)
    (es : List (StreamEvent n)) (out : Samples n) :
    let p := (Playback.new decoder sampleRate jitterFixed true).course decode es
    |p.playout.drift.currentPpm| ≤ 500 ∧
    |(p.tick decode out).2.playout.drift.currentPpm - p.playout.drift.currentPpm| ≤ 1 / 2 ∧
    (p.prime.1 = true →
      p.tick decode out = p.prime.2.tickResampled decode out ∧ Delivers decode p.prime.2 out) := by
  intro p
  have hflows : Flows p := (Flows.new decoder sampleRate jitterFixed).course decode hn hmax es
  refine ⟨abs_le.mpr ⟨hflows.bounded.lower, hflows.bounded.upper⟩, (hflows.tick decode hn hmax out).2,
    fun hgo => ⟨?_, hflows.prime.delivers decode hn hmax out⟩⟩
  rw [tick_eq, if_pos hgo, if_pos hflows.driftEnabled]

/-- The shortest frames, two of which have arrived. -/
theorem resampled_delivers_shortest :
    let p := (Playback.new (n := 5) () 48000 none true).course decodePcmS16
      [.play (.arrive 7 0 (List.replicate 10 1) 0), .play (.arrive 8 0 (List.replicate 10 1) 0)]
    p.prime.1 = true ∧ Delivers decodePcmS16 p.prime.2 fun _ => 0 := by
  intro p
  have hprimed : p.prime.1 = true := by decide +kernel
  obtain ⟨-, -, h⟩ := resampled_delivers decodePcmS16 (n := 5) (by decide) (by decide) () 48000 none
    [.play (.arrive 7 0 (List.replicate 10 1) 0), .play (.arrive 8 0 (List.replicate 10 1) 0)] fun _ => 0
  exact ⟨hprimed, (h hprimed).2⟩

end OnlineJam
