import OnlineJam.Core.Inbound
import OnlineJam.Proofs.PacingProofs
import OnlineJam.Proofs.PlayoutProofs

/-!
# Proofs: the buffer is as deep as the network makes it

The jitter estimate is an average of the differences between transit times and never exceeds the largest
one. The playout derives its target depth from whatever estimate it finds, and from nothing else.
-/

namespace OnlineJam

variable {n : Nat} {ε σ : Type}

/-! ## The estimate -/

/-- The estimate is within the bound, and the packet before had this transit time. -/
structure ArrivalJitter.Within (a : ArrivalJitter) (spreadUs : Nat) (last : Option Int) : Prop where
  nonneg : 0 ≤ a.jUs
  le : a.jUs ≤ spreadUs
  last : a.prev.map (fun p => (p.1 : Int) - p.2) = last

theorem ArrivalJitter.Within.new (spreadUs : Nat) : ArrivalJitter.new.Within spreadUs none :=
  ⟨le_rfl, Nat.cast_nonneg _, rfl⟩

theorem ArrivalJitter.Within.onArrival {a : ArrivalJitter} {spreadUs : Nat} {last : Option Int}
    (h : a.Within spreadUs last) {arrivalUs mediaUs : Nat}
    (hd : ∀ t ∈ last, ((arrivalUs : Int) - mediaUs - t).natAbs ≤ spreadUs) :
    (a.onArrival arrivalUs mediaUs).2.Within spreadUs (some (arrivalUs - mediaUs)) ∧
      (a.onArrival arrivalUs mediaUs).1 = (a.onArrival arrivalUs mediaUs).2.jUs := by
  refine ⟨?_, rfl⟩
  obtain ⟨hnonneg, hle, hlast⟩ := h
  unfold ArrivalJitter.onArrival
  cases hp : a.prev with
  | none => exact ⟨hnonneg, hle, rfl⟩
  | some p =>
    obtain ⟨pa, pm⟩ := p
    rw [hp] at hlast
    have hdiff := hd ((pa : Int) - pm) (Option.mem_def.mpr hlast.symm)
    have hcast : ((((arrivalUs : Int) - mediaUs - (pa - pm)).natAbs : Nat) : ℚ) ≤ spreadUs :=
      Nat.cast_le.mpr hdiff
    have hpos : (0 : ℚ) ≤ (((arrivalUs : Int) - mediaUs - (pa - pm)).natAbs : Nat) := Nat.cast_nonneg _
    refine ⟨?_, ?_, rfl⟩
    all_goals dsimp only
    all_goals linarith

/-! ## The target -/

/-- The controller in adaptive mode, with a target that an estimate of at most `spreadUs` explains. -/
structure PlayoutController.Aims (c : PlayoutController) (frameUs : ℚ) (spreadUs : Nat) : Prop where
  frame : c.frameUs = frameUs
  k : c.k = 3
  minFrames : c.minFrames = 2
  maxFrames : c.maxFrames = 20
  lower : 2 ≤ c.target
  upper : c.target ≤ min (2 + ⌈3 * (spreadUs : ℚ) / frameUs⌉) 20

namespace PlayoutController

variable {c : PlayoutController} {frameUs : ℚ} {spreadUs : Nat}

theorem Aims.of_same {c' : PlayoutController} (h : c.Aims frameUs spreadUs)
    (hframe : c'.frameUs = c.frameUs) (hk : c'.k = c.k) (hmin : c'.minFrames = c.minFrames)
    (hmax : c'.maxFrames = c.maxFrames) (htarget : c'.target = c.target) : c'.Aims frameUs spreadUs :=
  ⟨hframe.trans h.frame, hk.trans h.k, hmin.trans h.minFrames, hmax.trans h.maxFrames,
    htarget ▸ h.lower, htarget ▸ h.upper⟩

theorem Aims.withMisses (h : c.Aims frameUs spreadUs) (k : Nat) :
    Aims { c with consecutiveMisses := k } frameUs spreadUs := h.of_same rfl rfl rfl rfl rfl

theorem Aims.evaluate (h : c.Aims frameUs spreadUs) (hframe : 0 ≤ frameUs) {jitterUs : ℚ}
    (hj : 0 ≤ jitterUs ∧ jitterUs ≤ spreadUs) : (c.evaluate jitterUs).Aims frameUs spreadUs := by
  unfold PlayoutController.evaluate
  dsimp only
  split
  · have hle : 3 * jitterUs / frameUs ≤ 3 * (spreadUs : ℚ) / frameUs := by
      have := hj.2
      gcongr
    have hceil := Int.ceil_mono hle
    have hpos : 0 ≤ ⌈3 * jitterUs / frameUs⌉ := by
      have := hj.1
      exact Int.ceil_nonneg (by positivity)
    refine ⟨h.frame, h.k, h.minFrames, h.maxFrames, ?_, ?_⟩
    all_goals
      dsimp only
      rw [h.minFrames, h.maxFrames, h.k, h.frame]
      omega
  · exact h.of_same rfl rfl rfl rfl rfl

theorem Aims.postPop (h : c.Aims frameUs spreadUs) (hframe : 0 ≤ frameUs) (hit : Bool) {jitterUs : ℚ}
    (hj : 0 ≤ jitterUs ∧ jitterUs ≤ spreadUs) : (c.postPop hit jitterUs).2.Aims frameUs spreadUs := by
  unfold PlayoutController.postPop
  split
  · exact (h.withMisses 0).evaluate hframe hj
  · dsimp only
    split
    · exact h.of_same rfl rfl rfl rfl rfl
    · exact (h.withMisses (c.consecutiveMisses + 1)).evaluate hframe hj

theorem Aims.observeDepth (h : c.Aims frameUs spreadUs) (depth : Int) :
    (c.observeDepth depth).Aims frameUs spreadUs := by
  unfold PlayoutController.observeDepth
  split_ifs
  · exact h
  · exact h.of_same rfl rfl rfl rfl rfl
  · exact h.of_same rfl rfl rfl rfl rfl
  · exact h

theorem Aims.prePop (h : c.Aims frameUs spreadUs) (depth : Int) (started : Bool) :
    (c.prePop depth started).2.Aims frameUs spreadUs := by
  unfold PlayoutController.prePop
  split_ifs
  all_goals exact h.of_same rfl rfl rfl rfl rfl

end PlayoutController

/-! ## A tick -/

/-- The playout aims at what the published estimate explains. -/
structure Playback.Aims (p : Playback n σ) (frameUs : ℚ) (spreadUs : Nat) : Prop where
  controller : p.playout.controller.Aims frameUs spreadUs
  nonneg : 0 ≤ p.log.buffer.stats.jitterUs
  le : p.log.buffer.stats.jitterUs ≤ spreadUs

theorem JitterBuffer.popNext_jitterUs (jb : JitterBuffer) :
    jb.popNext.2.stats.jitterUs = jb.stats.jitterUs := by
  have htake : ∀ expect, (jb.take expect).2.stats = jb.stats := by
    intro expect
    unfold take
    dsimp only
    split_ifs <;> rfl
  unfold popNext
  by_cases hs : jb.started = true
  · rw [if_neg (not_not.mpr hs)]
    have hstats := htake jb.nextSeq
    dsimp only
    generalize jb.take jb.nextSeq = r at hstats ⊢
    obtain ⟨outcome, jb'⟩ := r
    dsimp only at hstats ⊢
    cases outcome with
    | frame => rw [← hstats]
    | missing => rw [← hstats]
  · rw [if_pos hs]

theorem JitterBuffer.skipNext_jitterUs (jb : JitterBuffer) :
    jb.skipNext.2.stats.jitterUs = jb.stats.jitterUs := by
  unfold skipNext
  split <;> rfl

namespace Playback

variable (decode : σ → Option Bytes → Samples n → Bool × Samples n × σ) {p : Playback n σ} {frameUs : ℚ}
  {spreadUs : Nat}

theorem Aims.of_same {p' : Playback n σ} (h : p.Aims frameUs spreadUs)
    (hcontroller : p'.playout.controller.Aims frameUs spreadUs)
    (hj : p'.log.buffer.stats.jitterUs = p.log.buffer.stats.jitterUs) : p'.Aims frameUs spreadUs :=
  ⟨hcontroller, hj ▸ h.nonneg, hj ▸ h.le⟩

theorem Aims.decodeNext (h : p.Aims frameUs spreadUs) : (p.decodeNext decode).2.Aims frameUs spreadUs := by
  obtain ⟨-, hcontroller, -, hlog⟩ := p.decodeNext_keeps decode
  refine h.of_same (hcontroller ▸ h.controller) ?_
  rcases hlog with hlog | hlog
  · rw [hlog]
  · rw [hlog, BufferLog.pop_buffer, JitterBuffer.popNext_jitterUs]

theorem Aims.pullDecoded (h : p.Aims frameUs spreadUs) (hframe : 0 ≤ frameUs) :
    (p.pullDecoded decode).2.Aims frameUs spreadUs := by
  have hnext := h.decodeNext decode
  have hpost := hnext.controller.postPop hframe (p.decodeNext decode).1 ⟨hnext.nonneg, hnext.le⟩
  unfold Playback.pullDecoded
  dsimp only
  split_ifs
  · exact ⟨hpost, hnext.nonneg, hnext.le⟩
  · exact ⟨hpost.observeDepth _, hnext.nonneg, hnext.le⟩

theorem Aims.applyStepAdjustment (h : p.Aims frameUs spreadUs) (out : Samples n) :
    (p.applyStepAdjustment out).Aims frameUs spreadUs := by
  have htake : (p.playout.controller.takeAdjustment).2.Aims frameUs spreadUs :=
    h.controller.of_same rfl rfl rfl rfl rfl
  unfold Playback.applyStepAdjustment
  split
  · dsimp only
    split
    · exact h.of_same htake rfl
    · exact h.of_same htake (JitterBuffer.skipNext_jitterUs _)
    · exact h.of_same htake rfl
  · exact h

theorem Aims.fillStaging (hframe : 0 ≤ frameUs) (fuel : Nat) (h : p.Aims frameUs spreadUs) :
    (p.fillStaging decode fuel).2.Aims frameUs spreadUs := by
  induction fuel generalizing p with
  | zero => exact h
  | succ fuel ih =>
    have hpull := h.pullDecoded decode hframe
    unfold Playback.fillStaging
    by_cases hlen : p.playout.staging.len < n
    · rw [if_pos hlen]
      generalize p.pullDecoded decode = r at hpull ⊢
      obtain ⟨hit, q⟩ := r
      cases hit with
      | none => exact hpull
      | some hit => exact ih (hpull.of_same hpull.controller rfl)
    · rw [if_neg hlen]
      exact h

theorem Aims.resetStream (h : p.Aims frameUs spreadUs) :
    Aims { p with playout := p.playout.resetStream } frameUs spreadUs :=
  h.of_same (h.controller.of_same rfl rfl rfl rfl rfl) rfl

theorem Aims.tickStepped (h : p.Aims frameUs spreadUs) (hframe : 0 ≤ frameUs) :
    (p.tickStepped decode).2.Aims frameUs spreadUs := by
  have hpull := h.pullDecoded decode hframe
  unfold Playback.tickStepped
  generalize p.pullDecoded decode = r at hpull ⊢
  obtain ⟨hit, q⟩ := r
  cases hit with
  | none => exact hpull
  | some hit => exact hpull.applyStepAdjustment _

theorem Aims.tickResampled (h : p.Aims frameUs spreadUs) (hframe : 0 ≤ frameUs) (out : Samples n) :
    (p.tickResampled decode out).2.Aims frameUs spreadUs := by
  have hrated : p.rated.Aims frameUs spreadUs := h.of_same h.controller rfl
  have hfill := hrated.fillStaging decode hframe fillRounds
  rw [tickResampled_eq]
  dsimp only
  split
  · refine Aims.applyStepAdjustment ?_ _
    exact hfill.of_same hfill.controller rfl
  · exact hfill.resetStream

theorem Aims.tick (h : p.Aims frameUs spreadUs) (hframe : 0 ≤ frameUs) (out : Samples n) :
    (p.tick decode out).2.Aims frameUs spreadUs := by
  have hprime : p.prime.2.Aims frameUs spreadUs := h.of_same (h.controller.prePop _ _) rfl
  rw [tick_eq]
  split_ifs
  · exact hprime.tickResampled decode hframe out
  · exact hprime.tickStepped decode hframe
  · exact hprime

end Playback

/-! ## Runs -/

namespace Inbound

variable {cfg : RxConfig} {frameUs : ℚ} {spreadUs : Nat}

/-- The receive thread's estimate and the target of the playout are within their bounds. -/
structure Aims (s : Inbound n σ) (frameUs : ℚ) (spreadUs : Nat) (last : Option Int) : Prop where
  jitter : s.jitter.Within spreadUs last
  controller : s.playout.controller.Aims frameUs spreadUs
  nonneg : 0 ≤ s.stream.jb.stats.jitterUs
  le : s.stream.jb.stats.jitterUs ≤ spreadUs

theorem aims_new (decoder : σ) (sampleRate spreadUs : Nat) (driftCorrection : Bool) :
    (Inbound.new (n := n) decoder sampleRate none driftCorrection).Aims (n * 1000000 / sampleRate) spreadUs
      none := by
  have hframe : (0 : ℚ) ≤ n * 1000000 / sampleRate := by positivity
  have hceil : 0 ≤ ⌈3 * (spreadUs : ℚ) / (n * 1000000 / sampleRate)⌉ := Int.ceil_nonneg (by positivity)
  have hnew : (PlayoutController.new n sampleRate).Aims (n * 1000000 / sampleRate) spreadUs :=
    ⟨rfl, rfl, rfl, rfl, le_rfl, le_min (show (2 : Int) ≤ _ by omega) (show (2 : Int) ≤ 20 by decide)⟩
  refine ⟨ArrivalJitter.Within.new spreadUs, ?_, le_rfl, Nat.cast_nonneg _⟩
  cases driftCorrection with
  | false => exact hnew
  | true => exact hnew.of_same rfl rfl rfl rfl rfl

/-- The step lemma: what an event leaves of the rest of the run. -/
theorem Aims.step (codec : AudioCodec n ε σ) {s : Inbound n σ} {last : Option Int} (h : s.Aims frameUs spreadUs last)
    (hframe : 0 ≤ frameUs) {e : InboundEvent n} {es : List (InboundEvent n)}
    (hspread : Spread cfg spreadUs last (e :: es)) :
    ∃ last', (s.step codec cfg e).Aims frameUs spreadUs last' ∧ Spread cfg spreadUs last' es := by
  cases e with
  | receive nowUs header audio =>
    obtain ⟨-, hpublished⟩ := receiveAudio_jitter cfg nowUs s.jitter s.stream header audio
    obtain ⟨hwithin, hout⟩ := h.jitter.onArrival hspread.1
    rw [hout] at hpublished
    refine ⟨_, ⟨hwithin, h.controller, ?_, ?_⟩, hspread.2⟩
    · show 0 ≤ (receiveAudio cfg nowUs s.jitter s.stream header audio).2.jb.stats.jitterUs
      rw [hpublished]
      exact hwithin.nonneg
    · show (receiveAudio cfg nowUs s.jitter s.stream header audio).2.jb.stats.jitterUs ≤ spreadUs
      rw [hpublished]
      exact hwithin.le
  | newSender => exact ⟨none, ⟨.new spreadUs, h.controller, h.nonneg, h.le⟩, hspread⟩
  | resetBuffer => exact ⟨last, ⟨h.jitter, h.controller, h.nonneg, h.le⟩, hspread⟩
  | resetStream =>
    exact ⟨last, ⟨h.jitter, h.controller.of_same rfl rfl rfl rfl rfl, h.nonneg, h.le⟩, hspread⟩
  | tick out =>
    let p : Playback n σ :=
      { playout := s.playout, log := { BufferLog.new with buffer := s.stream.jb }, played := [] }
    have hp : p.Aims frameUs spreadUs := ⟨h.controller, h.nonneg, h.le⟩
    have hnext := hp.tick codec.decode hframe out
    exact ⟨last, ⟨h.jitter, hnext.controller, hnext.nonneg, hnext.le⟩, hspread⟩

/-- The run lemma. -/
theorem Aims.run (codec : AudioCodec n ε σ) {s : Inbound n σ} {last : Option Int} (h : s.Aims frameUs spreadUs last)
    (hframe : 0 ≤ frameUs) {es : List (InboundEvent n)} (hspread : Spread cfg spreadUs last es) :
    ∃ last', (s.run codec cfg es).Aims frameUs spreadUs last' := by
  induction es generalizing s last with
  | nil => exact ⟨last, h⟩
  | cons e es ih =>
    obtain ⟨last', hnext, hrest⟩ := h.step codec hframe hspread
    exact ih hnext hrest

/-- The delay a stream is given follows the network: in adaptive mode, where the transit times of
neighbouring packets differ by at most `spreadUs`, the target depth is at most three times that above the
minimum, whatever is lost, late, repeated or reset, and however the receive thread, the control thread and
the audio callback interleave. -/
theorem target_follows_jitter (codec : AudioCodec n ε σ) (cfg : RxConfig) (decoder : σ) (sampleRate : Nat)
    (driftCorrection : Bool) {spreadUs : Nat} {es : List (InboundEvent n)}
    (hspread : Spread cfg spreadUs none es) :
    let s := (Inbound.new decoder sampleRate none driftCorrection).run codec cfg es
    s.stream.jb.stats.jitterUs ≤ spreadUs ∧ 2 ≤ s.playout.controller.target ∧
      s.playout.controller.target ≤ min (2 + ⌈3 * (spreadUs : ℚ) / (n * 1000000 / sampleRate)⌉) 20 := by
  obtain ⟨last, h⟩ := (aims_new decoder sampleRate spreadUs driftCorrection).run codec
    (by positivity) hspread
  exact ⟨h.le, h.controller.lower, h.controller.upper⟩

/-- A header and a packet of a stream of five frames a second. -/
def packetAt (nowUs : Nat) (k : Nat) : InboundEvent 2 :=
  .receive nowUs { ptype := .audio, sessionId := 7, senderId := 1, seq := UInt16.ofNat k }
    { timestamp := UInt32.ofNat (2 * k), codec := .pcmS16, payload := List.replicate 4 0
      redundant := none }

/-- The second packet is late by 150 ms, the others are not. Each one is followed by a tick. -/
def lateOnce : List (InboundEvent 2) :=
  (List.range 13).flatMap fun k =>
    [packetAt ((k + 1) * 200000 + if k = 1 then 150000 else 0) k, .tick fun _ => 0]

/-- The target is one frame above the minimum after two seconds. -/
theorem target_follows_jitter_late :
    let s := (Inbound.new () 10 none true).run pcmS16 { frameSamples := 2, sampleRate := 10 } lateOnce
    s.playout.controller.target = 3 ∧
    s.stream.jb.stats.jitterUs ≤ (150000 : Nat) ∧ 2 ≤ s.playout.controller.target ∧
      s.playout.controller.target ≤
        min (2 + ⌈3 * ((150000 : Nat) : ℚ) / ((2 : Nat) * 1000000 / (10 : Nat))⌉) 20 :=
  ⟨by decide +kernel,
    target_follows_jitter pcmS16 { frameSamples := 2, sampleRate := 10 } () 10 true (by decide +kernel)⟩

end Inbound

end OnlineJam
