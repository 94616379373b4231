import OnlineJam.Core.Playout
import OnlineJam.Proofs.BacklogProofs
import OnlineJam.Proofs.ResampleProofs

/-!
# Proofs: one tick of the playout

What every operation of the playout keeps, and what a pull costs: each one moves the miss counter or
takes a frame from the backlog, so that an interrupted stream is noticed in time.
-/

namespace OnlineJam

variable {n : Nat} {σ : Type}

/-! ## Controller -/

/-- The controller in adaptive mode, below its limit of misses. -/
structure PlayoutController.Steady (c : PlayoutController) (limit : Nat) : Prop where
  minFrames : c.minFrames = 2
  maxFrames : c.maxFrames = 20
  target_ge : 2 ≤ c.target
  target_le : c.target ≤ 20
  resetAfterMisses : c.resetAfterMisses = limit
  misses : c.consecutiveMisses < limit

namespace PlayoutController

variable {c : PlayoutController} {limit : Nat}

theorem Steady.withMisses (h : c.Steady limit) {k : Nat} (hk : k < limit) :
    Steady { c with consecutiveMisses := k } limit :=
  ⟨h.minFrames, h.maxFrames, h.target_ge, h.target_le, h.resetAfterMisses, hk⟩

theorem Steady.evaluate (h : c.Steady limit) (jitterUs : ℚ) :
    (c.evaluate jitterUs).Steady limit ∧ (c.evaluate jitterUs).primed = c.primed ∧
      (c.evaluate jitterUs).consecutiveMisses = c.consecutiveMisses := by
  rw [PlayoutController.evaluate]
  dsimp only
  split
  · refine ⟨⟨h.minFrames, h.maxFrames, ?_, ?_, h.resetAfterMisses, h.misses⟩, rfl, rfl⟩
    · dsimp only
      rw [h.minFrames]
      exact le_max_left _ _
    · dsimp only
      rw [h.minFrames, h.maxFrames]
      exact max_le (by decide) (min_le_right _ _)
  · exact ⟨⟨h.minFrames, h.maxFrames, h.target_ge, h.target_le, h.resetAfterMisses, h.misses⟩, rfl, rfl⟩

/-- What `post_pop` does: a hit sets the counter back, a miss counts, and one too many interrupts. -/
theorem Steady.postPop (h : c.Steady limit) (hit : Bool) (jitterUs : ℚ) :
    (c.postPop hit jitterUs).2.Steady limit ∧
    (((c.postPop hit jitterUs).1 = true ∧ (c.postPop hit jitterUs).2.primed = false ∧ hit = false) ∨
      ((c.postPop hit jitterUs).1 = false ∧ (c.postPop hit jitterUs).2.primed = c.primed ∧
        (c.postPop hit jitterUs).2.consecutiveMisses =
          if hit then 0 else c.consecutiveMisses + 1)) := by
  have hpos : 0 < limit := Nat.zero_lt_of_lt h.misses
  rw [PlayoutController.postPop]
  cases hit with
  | true =>
    obtain ⟨h1, h2, h3⟩ := (h.withMisses hpos).evaluate jitterUs
    exact ⟨h1, Or.inr ⟨rfl, h2, h3⟩⟩
  | false =>
    rw [if_neg Bool.false_ne_true]
    dsimp only
    split
    · exact ⟨⟨h.minFrames, h.maxFrames, h.target_ge, h.target_le, h.resetAfterMisses, hpos⟩,
        Or.inl ⟨rfl, rfl, rfl⟩⟩
    · rename_i hlt
      rw [h.resetAfterMisses, Nat.not_le] at hlt
      obtain ⟨h1, h2, h3⟩ := (h.withMisses hlt).evaluate jitterUs
      exact ⟨h1, Or.inr ⟨rfl, h2, h3⟩⟩

theorem Steady.observeDepth (h : c.Steady limit) (depth : Int) :
    (c.observeDepth depth).Steady limit ∧ (c.observeDepth depth).primed = c.primed ∧
      (c.observeDepth depth).consecutiveMisses = c.consecutiveMisses := by
  have hpending : ∀ a, Steady { c with pending := a } limit := fun a =>
    ⟨h.minFrames, h.maxFrames, h.target_ge, h.target_le, h.resetAfterMisses, h.misses⟩
  rw [PlayoutController.observeDepth]
  split_ifs
  · exact ⟨h, rfl, rfl⟩
  · exact ⟨hpending _, rfl, rfl⟩
  · exact ⟨hpending _, rfl, rfl⟩
  · exact ⟨h, rfl, rfl⟩

theorem Steady.takeAdjustment (h : c.Steady limit) : c.takeAdjustment.2.Steady limit :=
  ⟨h.minFrames, h.maxFrames, h.target_ge, h.target_le, h.resetAfterMisses, h.misses⟩

theorem Steady.reset (h : c.Steady limit) : c.reset.Steady limit :=
  ⟨h.minFrames, h.maxFrames, h.target_ge, h.target_le, h.resetAfterMisses,
    Nat.zero_lt_of_lt h.misses⟩

end PlayoutController

/-! ## Publishing -/

theorem BufferLog.Sound.publish {log : BufferLog} (h : log.Sound) (jitterUs : ℚ) :
    BufferLog.Sound { log with buffer := log.buffer.publishJitterUs jitterUs } where
  placed := h.placed
  backed := fun i hi => by
    obtain ⟨n, f, hb⟩ := h.backed i hi
    exact ⟨n, f, hb.latest, hb.holds, hb.len, hb.since, hb.waits⟩
  numbered := h.numbered
  apart := h.apart
  resetAt_le := h.resetAt_le
  passed := h.passed
  once := h.once

namespace Playback

/-! ## What always holds -/

/-- What holds at every point of a tick. -/
structure Core (p : Playback n σ) (limit : Nat) : Prop where
  sound : p.log.Sound
  past : ∀ m ∈ p.played, m < p.log.count
  steady : p.playout.controller.Steady limit
  capacity : p.playout.staging.capacity = n * 4 + 16
  staging_le : p.playout.staging.len ≤ n * 4 + 16
  ready : p.playout.resampler.Ready
  bounded : p.playout.drift.Bounded

/-- A frame can be decoded, whatever the state of the decoder. -/
def Decodable (decode : σ → Option Bytes → Samples n → Bool × Samples n × σ) (payload : Bytes) : Prop :=
  ∀ state buf, (decode state (some payload) buf).1 = true

/-- Every stored frame but the first `count` can be decoded. -/
structure Since (decode : σ → Option Bytes → Samples n → Bool × Samples n × σ) (log : BufferLog)
    (count : Nat) : Prop where
  count_le : count ≤ log.count
  decodable : ∀ seq m f, log.latest seq = some (m, f) → count ≤ m → Decodable decode f.payload

/-- How many more pulls there can be before the stream counts as interrupted. -/
def patience (p : Playback n σ) (limit count : Nat) : Nat :=
  limit * (p.log.backlog count).card + (limit - p.playout.controller.consecutiveMisses)

variable (decode : σ → Option Bytes → Samples n → Bool × Samples n × σ)

theorem Since.of_log {log log' : BufferLog} {count : Nat} (h : Since decode log count)
    (hcount : log'.count = log.count) (hlatest : log'.latest = log.latest) :
    Since decode log' count :=
  ⟨hcount ▸ h.count_le, hlatest ▸ h.decodable⟩

/-! ## One pull -/

/-- What a pull leaves alone. -/
structure Keeps (p p' : Playback n σ) : Prop where
  staging : p'.playout.staging = p.playout.staging
  resampler : p'.playout.resampler = p.playout.resampler
  drift : p'.playout.drift = p.playout.drift
  driftEnabled : p'.playout.driftEnabled = p.playout.driftEnabled
  played : p.played ⊆ p'.played
  count : p'.log.count = p.log.count
  latest : p'.log.latest = p.log.latest

theorem decodeNext_keeps (p : Playback n σ) : Keeps p (p.decodeNext decode).2 ∧
    (p.decodeNext decode).2.playout.controller = p.playout.controller ∧
    (p.decodeNext decode).2.playout.insertPending = false ∧
    ((p.decodeNext decode).2.log = p.log ∨ (p.decodeNext decode).2.log = p.log.pop) := by
  obtain ⟨hcount, hlatest, -⟩ := p.log.pop_log
  unfold decodeNext
  split
  · exact ⟨⟨rfl, rfl, rfl, rfl, List.Subset.refl _, rfl, rfl⟩, rfl, rfl, Or.inl rfl⟩
  · rename_i hins
    have hins := Bool.eq_false_of_not_eq_true hins
    unfold popDecoded
    split
    · dsimp only
      split
      · exact ⟨⟨rfl, rfl, rfl, rfl, List.subset_append_left _ _, hcount, hlatest⟩, rfl, hins,
          Or.inr rfl⟩
      · exact ⟨⟨rfl, rfl, rfl, rfl, List.Subset.refl _, hcount, hlatest⟩, rfl, hins, Or.inr rfl⟩
    · exact ⟨⟨rfl, rfl, rfl, rfl, List.Subset.refl _, hcount, hlatest⟩, rfl, hins, Or.inr rfl⟩

theorem pullDecoded_keeps (p : Playback n σ) : Keeps p (p.pullDecoded decode).2 := by
  obtain ⟨hkeeps, -, -, -⟩ := p.decodeNext_keeps decode
  rw [pullDecoded]
  dsimp only
  split_ifs
  · exact ⟨hkeeps.staging, hkeeps.resampler, hkeeps.drift, hkeeps.driftEnabled, hkeeps.played,
      hkeeps.count, hkeeps.latest⟩
  · exact ⟨hkeeps.staging, hkeeps.resampler, hkeeps.drift, hkeeps.driftEnabled, hkeeps.played,
      hkeeps.count, hkeeps.latest⟩

/-- What is played was stored before. -/
theorem decodeNext_past {p : Playback n σ} (hs : p.log.Sound) (hp : ∀ m ∈ p.played, m < p.log.count) :
    ∀ m ∈ (p.decodeNext decode).2.played, m < (p.decodeNext decode).2.log.count := by
  have hcount := p.log.pop_log.1
  unfold decodeNext
  split
  · exact hp
  · unfold popDecoded
    split
    · rename_i data timestamp hframe
      obtain ⟨-, k, hk, -⟩ := hs.frame hframe
      have hlt := hs.numbered _ _ _ hk
      dsimp only
      split
      · dsimp only
        rw [hcount, hk]
        intro m hm
        rcases List.mem_append.mp hm with hm | hm
        · exact hp m hm
        · simp only [Option.toList_some, List.map_cons, List.map_nil, List.mem_singleton] at hm
          rw [hm]
          exact hlt
      · dsimp only
        rw [hcount]
        exact hp
    · dsimp only
      rw [hcount]
      exact hp

/-- A hit is a new frame, which is played, or takes one from the backlog. -/
theorem decodeNext_backlog {p : Playback n σ} {count : Nat} (hs : p.log.Sound)
    (hc : Since decode p.log count) :
    (p.decodeNext decode).2.hasPlayed count = true ∨
    (((p.decodeNext decode).2.log.backlog count).card ≤ (p.log.backlog count).card ∧
      ((p.decodeNext decode).1 = true →
        ((p.decodeNext decode).2.log.backlog count).card < (p.log.backlog count).card)) := by
  unfold decodeNext
  split
  · exact Or.inr ⟨le_rfl, fun h => by cases h⟩
  · have hle := Finset.card_le_card (BufferLog.backlog_pop hs count)
    unfold popDecoded
    split
    · rename_i data timestamp hframe
      obtain ⟨-, m, hm, -⟩ := hs.frame hframe
      by_cases hlt : m < count
      · have hless := BufferLog.backlog_pop_lt hs hframe hm hlt
        dsimp only
        split
        · exact Or.inr ⟨hle, fun _ => hless⟩
        · exact Or.inr ⟨hle, fun h => by cases h⟩
      · have hok := hc.decodable _ _ _ hm (Nat.le_of_not_lt hlt) p.playout.decoder p.playout.decodeBuf
        dsimp only at hok ⊢
        rw [if_pos hok]
        refine Or.inl ?_
        rw [hasPlayed, List.any_append, hm]
        simp [Nat.le_of_not_lt hlt]
    · exact Or.inr ⟨hle, fun h => by cases h⟩

/-- What a pull does: it interrupts the stream, or counts a hit or a miss. -/
theorem pullDecoded_cases {p : Playback n σ} {limit : Nat} (h : Core p limit) :
    Core (p.pullDecoded decode).2 limit ∧ Keeps p (p.pullDecoded decode).2 ∧
    (p.pullDecoded decode).2.playout.insertPending = false ∧
    (p.pullDecoded decode).2.played = (p.decodeNext decode).2.played ∧
    (((p.pullDecoded decode).1 = none ∧ (p.pullDecoded decode).2.playout.controller.primed = false ∧
        (p.pullDecoded decode).2.log.buffer.started = false) ∨
      ((p.pullDecoded decode).1 = some (p.decodeNext decode).1 ∧
        (p.pullDecoded decode).2.playout.controller.primed = p.playout.controller.primed ∧
        (p.pullDecoded decode).2.playout.controller.consecutiveMisses =
          (if (p.decodeNext decode).1 then 0 else p.playout.controller.consecutiveMisses + 1) ∧
        (p.pullDecoded decode).2.log = (p.decodeNext decode).2.log)) := by
  obtain ⟨hkeeps, hctl, hins, hlog⟩ := p.decodeNext_keeps decode
  have hsound : (p.decodeNext decode).2.log.Sound := by
    rcases hlog with hlog | hlog <;> rw [hlog]
    · exact h.sound
    · exact h.sound.pop
  have hpast := decodeNext_past decode h.sound h.past
  rw [pullDecoded]
  generalize p.decodeNext decode = r at hkeeps hctl hins hsound hpast ⊢
  obtain ⟨hit, q⟩ := r
  dsimp only at hkeeps hctl hins hsound hpast ⊢
  obtain ⟨hsteady, hpost⟩ := h.steady.postPop hit q.log.buffer.stats.jitterUs
  rw [hctl]
  generalize p.playout.controller.postPop hit q.log.buffer.stats.jitterUs = r at hsteady hpost ⊢
  obtain ⟨interrupted, c⟩ := r
  dsimp only at hsteady hpost ⊢
  have hcap : q.playout.staging.capacity = n * 4 + 16 := by rw [hkeeps.staging, h.capacity]
  have hlen : q.playout.staging.len ≤ n * 4 + 16 := by rw [hkeeps.staging]; exact h.staging_le
  have hready : q.playout.resampler.Ready := by rw [hkeeps.resampler]; exact h.ready
  have hbounded : q.playout.drift.Bounded := by rw [hkeeps.drift]; exact h.bounded
  have hkeeps' : ∀ (c : PlayoutController) (log : BufferLog), log.count = q.log.count →
      log.latest = q.log.latest →
      Keeps p { q with playout := { q.playout with controller := c }, log := log } :=
    fun _ _ h1 h2 => ⟨hkeeps.staging, hkeeps.resampler, hkeeps.drift, hkeeps.driftEnabled,
      hkeeps.played, h1.trans hkeeps.count, h2.trans hkeeps.latest⟩
  rcases hpost with ⟨hi, hprimed, -⟩ | ⟨hi, hprimed, hmisses⟩
  · rw [if_pos hi]
    exact ⟨⟨hsound.reset, hpast, hsteady, hcap, hlen, hready, hbounded⟩, hkeeps' _ _ rfl rfl, hins, rfl,
      Or.inl ⟨rfl, hprimed, rfl⟩⟩
  · obtain ⟨hobs, hobsp, hobsm⟩ := hsteady.observeDepth q.log.buffer.depth
    rw [if_neg (by rw [hi]; exact Bool.false_ne_true)]
    exact ⟨⟨hsound, hpast, hobs, hcap, hlen, hready, hbounded⟩, hkeeps' _ _ rfl rfl, hins, rfl,
      Or.inr ⟨rfl, hobsp.trans hprimed, hobsm.trans hmisses, rfl⟩⟩

/-- A pull that neither plays a new frame nor interrupts the stream costs patience. -/
theorem pullDecoded_patience {p : Playback n σ} {limit count : Nat} (h : Core p limit)
    (hc : Since decode p.log count) : (p.pullDecoded decode).2.hasPlayed count = true ∨
      (p.pullDecoded decode).1 = none ∨
      (p.pullDecoded decode).2.patience limit count < p.patience limit count := by
  obtain ⟨hcore, -, -, hplayed, hcases⟩ := pullDecoded_cases decode h
  rcases hcases with ⟨hnone, -⟩ | ⟨-, -, hmisses, hlog⟩
  · exact Or.inr (Or.inl hnone)
  · rcases decodeNext_backlog decode h.sound hc with hnew | ⟨hle, hlt⟩
    · rw [hasPlayed, hplayed]
      exact Or.inl hnew
    · refine Or.inr (Or.inr ?_)
      have hm := h.steady.misses
      have hm' := hcore.steady.misses
      rw [patience, patience, hlog]
      rw [hmisses] at hm' ⊢
      cases hhit : (p.decodeNext decode).1 with
      | true =>
        have hmul := Nat.mul_le_mul_left limit (hlt hhit)
        rw [Nat.mul_succ] at hmul
        simp only [if_true]
        omega
      | false =>
        have hmul := Nat.mul_le_mul_left limit hle
        rw [hhit, if_neg Bool.false_ne_true] at hm'
        simp only [Bool.false_eq_true, if_false]
        omega

/-! ## Staging -/

/-- The largest ratio of the resampler under drift correction. -/
def maxRatio : ℚ := 2001 / 2000

/-- The samples in the FIFO, less what the resampler is ahead. -/
def staged (p : Playback n σ) : ℚ := p.playout.staging.len - maxRatio * p.playout.resampler.phase

/-- The samples in the FIFO in terms of input. -/
def supply (p : Playback n σ) : ℚ :=
  p.playout.staging.len * p.playout.resampler.step - p.playout.resampler.phase +
    p.playout.resampler.primed

/-- The FIFO has the room it was made with, and the resampler runs near its rate. -/
structure Fed (p : Playback n σ) : Prop where
  capacity : p.playout.staging.capacity = n * 4 + 16
  ready : p.playout.resampler.Ready

theorem Core.fed {p : Playback n σ} {limit : Nat} (h : Core p limit) : Fed p := ⟨h.capacity, h.ready⟩

/-- A frame goes through the resampler in full, and the FIFO has room for what comes out. -/
theorem stage_whole {p : Playback n σ} (h : Fed p) (hn : n ≤ 240) (hlen : p.playout.staging.len < n) :
    p.playout.resampler.process (List.ofFn p.playout.decodeBuf) (maxFrameSamples + resampleSlack) =
      p.resampled ∧
    (p.playout.staging.push p.resampled.1).1 = 0 ∧
    p.stage = { p with playout := { p.playout with
      resampler := p.resampled.2
      staging := { p.playout.staging with
        samples := p.playout.staging.samples ++ p.resampled.1 } } } := by
  have hxs : (List.ofFn p.playout.decodeBuf).length = n := List.length_ofFn
  have hprocess : p.playout.resampler.process (List.ofFn p.playout.decodeBuf)
      (maxFrameSamples + resampleSlack) = p.resampled := h.ready.process_frame (hxs.trans_le hn)
  have hout : p.resampled.1.length ≤ n * 102 / 100 + 3 := by
    have hmul : (n : ℚ) * p.playout.resampler.ratio ≤ n * (102 / 100) :=
      mul_le_mul_of_nonneg_left h.ready.ratio_le (Nat.cast_nonneg n)
    have hdiv : (n : ℚ) * 102 < 100 * ((n * 102 / 100 : Nat) + 1) := by
      have : n * 102 < 100 * (n * 102 / 100 + 1) := Nat.lt_mul_div_succ _ (by decide)
      exact_mod_cast this
    apply h.ready.feedAll_length_le
    rw [hxs]
    push_cast at hdiv ⊢
    linarith
  have hroom : (p.playout.staging.samples ++ p.resampled.1).length - p.playout.staging.capacity = 0 := by
    rw [SampleFifo.len] at hlen
    rw [List.length_append, h.capacity]
    omega
  have hpush : p.playout.staging.push p.resampled.1 =
      (0, { p.playout.staging with samples := p.playout.staging.samples ++ p.resampled.1 }) := by
    rw [SampleFifo.push]
    dsimp only
    rw [hroom, List.drop_zero]
  refine ⟨hprocess, by rw [hpush], ?_⟩
  unfold stage
  rw [hprocess]
  dsimp only
  rw [hpush]

/-- A staged frame counts in full, whatever the ratio makes of it. -/
theorem stage_supply {p : Playback n σ} (h : Fed p) (hn : n ≤ 240) (hlen : p.playout.staging.len < n) :
    Fed p.stage ∧ p.stage.playout.resampler.ratio = p.playout.resampler.ratio ∧
    p.stage.supply = p.supply + n := by
  obtain ⟨-, -, hstage⟩ := stage_whole h hn hlen
  obtain ⟨h1, h2, h3, -⟩ := h.ready.feedAll (List.ofFn p.playout.decodeBuf)
  rw [List.length_ofFn] at h3
  have hstep : p.resampled.2.step = p.playout.resampler.step := by
    rw [HermiteResampler.step, HermiteResampler.step, resampled, h2]
  rw [hstage]
  refine ⟨⟨h.capacity, h1⟩, h2, ?_⟩
  unfold supply SampleFifo.len
  dsimp only
  rw [hstep, List.length_append]
  push_cast
  change p.resampled.1.length * _ + (p.resampled.2.primed - p.resampled.2.phase : ℚ) = _ at h3
  linarith

/-- A frame that goes through the resampler comes out at most slightly longer. -/
theorem stage_spec {p : Playback n σ} {limit : Nat} (h : Core p limit) (hn : n ≤ 240)
    (hlen : p.playout.staging.len < n) (hratio : p.playout.resampler.ratio ≤ maxRatio) :
    Core p.stage limit ∧ p.stage.playout.resampler.ratio = p.playout.resampler.ratio ∧
    p.stage.staged ≤ p.staged + maxRatio * n := by
  obtain ⟨-, hdrop, hstage⟩ := stage_whole h.fed hn hlen
  obtain ⟨h1, h2, h3, h4⟩ := h.ready.feedAll (List.ofFn p.playout.decodeBuf)
  rw [List.length_ofFn] at h3
  have hrat := h.ready.ratio_pos
  have hmul : p.playout.resampler.step * p.playout.resampler.ratio = 1 := by
    rw [HermiteResampler.step, one_div, inv_mul_cancel₀ hrat.ne']
  have hfits : (p.playout.staging.samples ++ p.resampled.1).length ≤ n * 4 + 16 := by
    rw [← h.capacity]
    exact Nat.sub_eq_zero_iff_le.mp hdrop
  rw [hstage]
  unfold staged SampleFifo.len
  dsimp only
  rw [List.length_append]
  change p.resampled.2.Ready at h1
  change p.resampled.2.ratio = _ at h2
  change p.resampled.1.length * _ + (p.resampled.2.primed - p.resampled.2.phase) = _ at h3
  change _ ≤ p.resampled.2.primed at h4
  generalize p.resampled = r at h1 h2 h3 h4 hfits ⊢
  obtain ⟨out, rs⟩ := r
  dsimp only at h1 h2 h3 h4 hfits ⊢
  have hp : (p.playout.resampler.primed : ℚ) ≤ rs.primed := by exact_mod_cast h4
  obtain ⟨hs, -⟩ := h.ready.step_bounds
  push_cast
  refine ⟨⟨h.sound, h.past, h.steady, h.capacity, hfits, h1, h.bounded⟩, h2, ?_⟩
  -- What comes out is what went in times a ratio.
  have hin : (out.length : ℚ) = (n + (p.playout.resampler.primed - p.playout.resampler.phase) -
      (rs.primed - rs.phase)) * p.playout.resampler.ratio := by
    rw [← h3, add_sub_cancel_right, mul_assoc, hmul, mul_one]
  have hnonneg : 0 ≤ (n : ℚ) + (p.playout.resampler.primed - p.playout.resampler.phase) -
      (rs.primed - rs.phase) := by
    rw [← h3, add_sub_cancel_right]
    exact mul_nonneg (Nat.cast_nonneg _) (by linarith)
  have hle := mul_le_mul_of_nonneg_left hratio hnonneg
  rw [← hin] at hle
  have hwarm : ((n : ℚ) + (p.playout.resampler.primed - p.playout.resampler.phase) -
      (rs.primed - rs.phase)) * maxRatio ≤
      (n + rs.phase - p.playout.resampler.phase) * maxRatio :=
    mul_le_mul_of_nonneg_right (by linarith) (by norm_num [maxRatio])
  linarith

/-- Supply for a frame and the warm-up means a full FIFO. -/
theorem Fed.full {p : Playback n σ} (h : Fed p) (hsupply : n * p.playout.resampler.step + 3 ≤ p.supply) :
    n ≤ p.playout.staging.len := by
  obtain ⟨hs, -⟩ := h.ready.step_bounds
  have hph := h.ready.phase_nonneg
  have hpr : (p.playout.resampler.primed : ℚ) ≤ 3 := by exact_mod_cast h.ready.primed_le
  by_contra hlt
  have hlt' : (p.playout.staging.len : ℚ) + 1 ≤ n := by exact_mod_cast Nat.not_le.mp hlt
  have hmul := mul_le_mul_of_nonneg_right hlt' (show 0 ≤ p.playout.resampler.step by linarith)
  rw [supply] at hsupply
  linarith

/-- What a live round of the loop comes to. -/
theorem Fed.round {p : Playback n σ} (h : Fed p) (hn : n ≤ 240) (hlen : p.playout.staging.len < n) :
    Fed (p.pullDecoded decode).2.stage ∧
    (p.pullDecoded decode).2.stage.playout.resampler.step = p.playout.resampler.step ∧
    (p.pullDecoded decode).2.stage.supply = p.supply + n := by
  have hkeeps := p.pullDecoded_keeps decode
  generalize p.pullDecoded decode = r at hkeeps ⊢
  have hfed : Fed r.2 := ⟨by rw [hkeeps.staging]; exact h.capacity, by rw [hkeeps.resampler]; exact h.ready⟩
  obtain ⟨h1, h2, h3⟩ := stage_supply hfed hn (by rw [hkeeps.staging]; exact hlen)
  refine ⟨h1, ?_, ?_⟩
  · rw [HermiteResampler.step, HermiteResampler.step, h2, hkeeps.resampler]
  · rw [h3, supply, supply, hkeeps.staging, hkeeps.resampler]

/-- Rounds that bring enough supply fill the FIFO. -/
theorem fillStaging_full (hn : n ≤ 240) (fuel : Nat) {p : Playback n σ} (h : Fed p)
    (hfuel : n * p.playout.resampler.step + 3 ≤ fuel * n + p.supply)
    (hlive : (fillStaging decode fuel p).1 = true) :
    n ≤ (fillStaging decode fuel p).2.playout.staging.len := by
  induction fuel generalizing p with
  | zero =>
    rw [Nat.cast_zero, zero_mul, zero_add] at hfuel
    exact h.full hfuel
  | succ fuel ih =>
    rw [fillStaging] at hlive ⊢
    split at hlive
    · rename_i hlt
      obtain ⟨hfed, hstep, hsupply⟩ := h.round decode hn hlt
      rw [if_pos hlt]
      generalize p.pullDecoded decode = r at hfed hstep hsupply hlive ⊢
      obtain ⟨hit, q⟩ := r
      dsimp only at hfed hstep hsupply hlive ⊢
      cases hit with
      | none => cases hlive
      | some hit =>
        refine ih hfed ?_ hlive
        rw [hstep, hsupply]
        push_cast at hfuel
        linarith
    · rename_i hlt
      rw [if_neg hlt]
      exact Nat.le_of_not_lt hlt

theorem hasPlayed_mono {p p' : Playback n σ} {count : Nat} (hsub : p.played ⊆ p'.played)
    (h : p.hasPlayed count = true) : p'.hasPlayed count = true := by
  obtain ⟨m, hm, hle⟩ := List.any_eq_true.mp h
  exact List.any_eq_true.mpr ⟨m, hsub hm, hle⟩

/-- The stream waits for its first frame. -/
structure Idle (p : Playback n σ) : Prop where
  primed : p.playout.controller.primed = false
  started : p.log.buffer.started = false

theorem fillStaging_cases {limit : Nat} (hn : n ≤ 240) (fuel : Nat) {p : Playback n σ}
    (h : Core p limit) (hratio : p.playout.resampler.ratio ≤ maxRatio) :
    Core (fillStaging decode fuel p).2 limit ∧ p.played ⊆ (fillStaging decode fuel p).2.played ∧
    (fillStaging decode fuel p).2.playout.driftEnabled = p.playout.driftEnabled ∧
    (fillStaging decode fuel p).2.log.count = p.log.count ∧
    (fillStaging decode fuel p).2.log.latest = p.log.latest ∧
    (((fillStaging decode fuel p).1 = false ∧ Idle (fillStaging decode fuel p).2) ∨
      ((fillStaging decode fuel p).1 = true ∧
        (fillStaging decode fuel p).2.playout.controller.primed =
          p.playout.controller.primed)) := by
  induction fuel generalizing p with
  | zero => exact ⟨h, List.Subset.refl _, rfl, rfl, rfl, Or.inr ⟨rfl, rfl⟩⟩
  | succ fuel ih =>
    rw [fillStaging]
    split
    · rename_i hlt
      obtain ⟨hcore, hkeeps, -, -, hcases⟩ := pullDecoded_cases decode h
      generalize p.pullDecoded decode = r at hcore hkeeps hcases ⊢
      obtain ⟨hit, q⟩ := r
      dsimp only at hcore hkeeps hcases ⊢
      cases hit with
      | none =>
        rcases hcases with ⟨-, hp, hs⟩ | ⟨hno, -⟩
        · exact ⟨hcore, hkeeps.played, hkeeps.driftEnabled, hkeeps.count, hkeeps.latest,
            Or.inl ⟨rfl, hp, hs⟩⟩
        · cases hno
      | some hit =>
        have hstaging : q.playout.staging.len < n := by rw [hkeeps.staging]; exact hlt
        have hrat : q.playout.resampler.ratio ≤ maxRatio := by rw [hkeeps.resampler]; exact hratio
        obtain ⟨hcore', hr', -⟩ := stage_spec hcore hn hstaging hrat
        obtain ⟨i1, i2, i3, i4, i5, i6⟩ := ih hcore' (hr'.trans_le hrat)
        have hprimed : q.stage.playout.controller.primed = p.playout.controller.primed := by
          rcases hcases with ⟨hno, -⟩ | ⟨-, hp, -⟩
          · cases hno
          · exact hp
        refine ⟨i1, List.Subset.trans hkeeps.played i2, i3.trans hkeeps.driftEnabled,
          i4.trans hkeeps.count, i5.trans hkeeps.latest, ?_⟩
        rw [← hprimed]
        exact i6
    · exact ⟨h, List.Subset.refl _, rfl, rfl, rfl, Or.inr ⟨rfl, rfl⟩⟩

/-- Staged samples and patience, in one measure: a pull gives the one for the other. -/
def energy (p : Playback n σ) (limit count : Nat) : ℚ :=
  p.staged + maxRatio * n * p.patience limit count

theorem fillStaging_energy {limit count : Nat} (hn : n ≤ 240) (fuel : Nat) {p : Playback n σ}
    (h : Core p limit) (hratio : p.playout.resampler.ratio ≤ maxRatio)
    (hc : Since decode p.log count) :
    (fillStaging decode fuel p).2.hasPlayed count = true ∨ (fillStaging decode fuel p).1 = false ∨
      (fillStaging decode fuel p).2.energy limit count ≤ p.energy limit count := by
  induction fuel generalizing p with
  | zero => exact Or.inr (Or.inr le_rfl)
  | succ fuel ih =>
    rw [fillStaging]
    split
    · rename_i hlt
      obtain ⟨hcore, hkeeps, -, -⟩ := pullDecoded_cases decode h
      have hpat := pullDecoded_patience decode h hc
      generalize p.pullDecoded decode = r at hcore hkeeps hpat ⊢
      obtain ⟨hit, q⟩ := r
      dsimp only at hcore hkeeps hpat ⊢
      cases hit with
      | none => exact Or.inr (Or.inl rfl)
      | some hit =>
        have hstaging : q.playout.staging.len < n := by rw [hkeeps.staging]; exact hlt
        have hrat : q.playout.resampler.ratio ≤ maxRatio := by rw [hkeeps.resampler]; exact hratio
        obtain ⟨hcore', hr', hstaged⟩ := stage_spec hcore hn hstaging hrat
        rcases hpat with hnew | hno | hlt'
        · -- Already played: the later pulls keep it.
          refine Or.inl (hasPlayed_mono ?_ hnew)
          exact (fillStaging_cases decode hn fuel hcore' (hr'.trans_le hrat)).2.1
        · cases hno
        · have hsince : Since decode q.stage.log count := hc.of_log decode hkeeps.count hkeeps.latest
          rcases ih hcore' (hr'.trans_le hrat) hsince with i | i | i
          · exact Or.inl i
          · exact Or.inr (Or.inl i)
          · refine Or.inr (Or.inr (i.trans ?_))
            have hq : q.staged = p.staged := by rw [staged, staged, hkeeps.staging, hkeeps.resampler]
            have hpq : q.stage.patience limit count = q.patience limit count := rfl
            have hcost : (q.patience limit count : ℚ) + 1 ≤ p.patience limit count := by
              exact_mod_cast hlt'
            have hmul : maxRatio * n * (q.patience limit count + 1) ≤
                maxRatio * n * p.patience limit count :=
              mul_le_mul_of_nonneg_left hcost
                (mul_nonneg (by norm_num [maxRatio]) (Nat.cast_nonneg _))
            rw [energy, energy, hpq]
            rw [hq] at hstaged
            linarith
    · exact Or.inr (Or.inr le_rfl)

/-! ## One tick -/

/-- A quiet tick may skip a frame or ask for a concealed one. -/
theorem applyStepAdjustment_spec {p : Playback n σ} {limit : Nat} (h : Core p limit)
    (out : Samples n) : Core (p.applyStepAdjustment out) limit ∧
    (p.applyStepAdjustment out).playout.controller.primed = p.playout.controller.primed ∧
    (p.applyStepAdjustment out).playout.driftEnabled = p.playout.driftEnabled ∧
    (p.applyStepAdjustment out).played = p.played ∧
    (∀ count, (p.applyStepAdjustment out).energy limit count ≤ p.energy limit count) ∧
    (p.applyStepAdjustment out).log.count = p.log.count ∧
    (p.applyStepAdjustment out).log.latest = p.log.latest := by
  have hskip : (p.log.step .skip).Sound := h.sound.step .skip
  have hbacklog : ∀ count, (p.log.step .skip).backlog count ⊆ p.log.backlog count :=
    BufferLog.backlog_read p.log.buffer.skipNext_reads rfl
  unfold applyStepAdjustment
  split
  · unfold PlayoutController.takeAdjustment
    dsimp only
    split
    · exact ⟨⟨h.sound, h.past, h.steady.takeAdjustment, h.capacity, h.staging_le, h.ready, h.bounded⟩, rfl,
        rfl, rfl, fun _ => le_rfl, rfl, rfl⟩
    · refine ⟨⟨hskip, h.past, h.steady.takeAdjustment, h.capacity, h.staging_le, h.ready, h.bounded⟩, rfl,
        rfl, rfl, fun count => ?_, rfl, rfl⟩
      have hcard := Finset.card_le_card (hbacklog count)
      have hpat : limit * ((p.log.step .skip).backlog count).card +
          (limit - p.playout.controller.consecutiveMisses) ≤ p.patience limit count :=
        Nat.add_le_add_right (Nat.mul_le_mul_left limit hcard) _
      exact add_le_add_right (mul_le_mul_of_nonneg_left (Nat.cast_le.mpr hpat)
        (mul_nonneg (by norm_num [maxRatio]) (Nat.cast_nonneg _))) _
    · exact ⟨⟨h.sound, h.past, h.steady.takeAdjustment, h.capacity, h.staging_le, h.ready, h.bounded⟩, rfl,
        rfl, rfl, fun _ => le_rfl, rfl, rfl⟩
  · exact ⟨h, rfl, rfl, rfl, fun _ => le_rfl, rfl, rfl⟩

/-- Nothing of an earlier stream waits in the playout. -/
structure Blank (p : Playback n σ) : Prop where
  insertPending : p.playout.insertPending = false
  staging : p.playout.driftEnabled = true → p.playout.staging.samples = []

/-- What a tick of a primed stream comes to. -/
structure Ticked (p p' : Playback n σ) (limit : Nat) : Prop where
  core : Core p' limit
  driftEnabled : p'.playout.driftEnabled = p.playout.driftEnabled
  count : p'.log.count = p.log.count
  latest : p'.log.latest = p.log.latest
  outcome : p'.playout.controller.primed = true ∨ (Idle p' ∧ Blank p')
  energy : ∀ count, Since decode p.log count → p'.hasPlayed count = true ∨ Idle p' ∨
    p'.energy limit count + n ≤ p.energy limit count

theorem tickStepped_ticked {p : Playback n σ} {limit : Nat} (h : Core p limit)
    (hp : p.playout.controller.primed = true) (hd : p.playout.driftEnabled = false) :
    Ticked decode p (p.tickStepped decode).2 limit := by
  obtain ⟨hcore, hkeeps, hins, -, hcases⟩ := pullDecoded_cases decode h
  have hpat := fun count => @pullDecoded_patience n σ decode p limit count h
  rw [tickStepped]
  generalize p.pullDecoded decode = r at hcore hkeeps hins hcases hpat ⊢
  obtain ⟨hit, q⟩ := r
  dsimp only at hcore hkeeps hins hcases hpat ⊢
  cases hit with
  | none =>
    rcases hcases with ⟨-, hprimed, hstarted⟩ | ⟨hno, -⟩
    · have hidle : Idle q := ⟨hprimed, hstarted⟩
      refine ⟨hcore, hkeeps.driftEnabled, hkeeps.count, hkeeps.latest,
        Or.inr ⟨hidle, hins, fun hdrift => ?_⟩, fun _ _ => Or.inr (Or.inl hidle)⟩
      rw [hkeeps.driftEnabled, hd] at hdrift
      cases hdrift
    · cases hno
  | some hit =>
    have hprimed : q.playout.controller.primed = true := by
      rcases hcases with ⟨hno, -⟩ | ⟨-, hpr, -⟩
      · cases hno
      · exact hpr.trans hp
    obtain ⟨a1, a2, a3, a4, a5, a6, a7⟩ := applyStepAdjustment_spec hcore q.playout.decodeBuf
    refine ⟨a1, a3.trans hkeeps.driftEnabled, a6.trans hkeeps.count, a7.trans hkeeps.latest,
      Or.inl (a2.trans hprimed), fun count hc => ?_⟩
    rcases hpat count hc with hnew | hno | hlt
    · exact Or.inl (hasPlayed_mono (fun _ hm => a4 ▸ hm) hnew)
    · cases hno
    · refine Or.inr (Or.inr ?_)
      have hq : q.staged = p.staged := by rw [staged, staged, hkeeps.staging, hkeeps.resampler]
      have hcost : (q.patience limit count : ℚ) + 1 ≤ p.patience limit count := by exact_mod_cast hlt
      have hn0 : (0 : ℚ) ≤ n := Nat.cast_nonneg n
      have hmul : maxRatio * n * (q.patience limit count + 1) ≤
          maxRatio * n * p.patience limit count :=
        mul_le_mul_of_nonneg_left hcost (mul_nonneg (by norm_num [maxRatio]) hn0)
      have hrho : (n : ℚ) ≤ maxRatio * n := by
        rw [maxRatio]
        linarith
      have ha := a5 count
      have he : q.energy limit count + n ≤ p.energy limit count := by
        rw [energy, energy, hq]
        linarith
      linarith

theorem rated_spec {p : Playback n σ} {limit : Nat} (h : Core p limit) :
    Core p.rated limit ∧ p.rated.playout.resampler.ratio ≤ maxRatio := by
  obtain ⟨hb, hr⟩ := h.bounded.update
    ((p.log.buffer.depth - p.playout.controller.target : Int) : ℚ)
  refine ⟨⟨h.sound, h.past, h.steady, h.capacity, h.staging_le, h.ready.setRatio _, hb⟩, ?_⟩
  refine max_le (by norm_num [maxRatio]) ((min_le_left _ _).trans ?_)
  rw [hr]
  have := hb.upper
  rw [maxRatio]
  linarith

/-- The playout after a frame was taken out of its FIFO. -/
def unstaged (p : Playback n σ) : Playback n σ :=
  { p with playout := { p.playout with
      staging := { p.playout.staging with samples := p.playout.staging.samples.drop n } } }

theorem tickResampled_eq (p : Playback n σ) (out : Samples n) : p.tickResampled decode out =
    let r := fillStaging decode fillRounds p.rated
    let frame : Samples n := match (r.2.playout.staging.pop n).1 with
      | some samples => fun i => samples.getD i 0
      | none => out
    if r.1 = true then
      ((true, frame), applyStepAdjustment { r.2 with
        playout := { r.2.playout with staging := (r.2.playout.staging.pop n).2 } } frame)
    else ((false, fun _ => 0), { r.2 with playout := r.2.playout.resetStream }) := by
  unfold tickResampled
  rfl

theorem tickResampled_outage {p : Playback n σ}
    (h : (fillStaging decode fillRounds p.rated).1 = false) (out : Samples n) :
    p.tickResampled decode out = ((false, fun _ => 0), { (fillStaging decode fillRounds p.rated).2 with
      playout := (fillStaging decode fillRounds p.rated).2.playout.resetStream }) := by
  rw [tickResampled_eq]
  generalize fillStaging decode fillRounds p.rated = r at h ⊢
  dsimp only
  rw [h, if_neg Bool.false_ne_true]

theorem tickResampled_live {p : Playback n σ}
    (h : (fillStaging decode fillRounds p.rated).1 = true)
    (hlen : n ≤ (fillStaging decode fillRounds p.rated).2.playout.staging.len) (out : Samples n) :
    let q := (fillStaging decode fillRounds p.rated).2
    let out' : Samples n := fun i => (q.playout.staging.samples.take n).getD i 0
    p.tickResampled decode out = ((true, out'), q.unstaged.applyStepAdjustment out') := by
  rw [tickResampled_eq]
  generalize fillStaging decode fillRounds p.rated = r at h hlen ⊢
  have hpop : r.2.playout.staging.pop n =
      (some (r.2.playout.staging.samples.take n), r.2.unstaged.playout.staging) := by
    rw [SampleFifo.pop, if_neg (Nat.not_lt.mpr hlen)]
    rfl
  dsimp only
  rw [h, if_pos rfl, hpop]
  rfl

theorem unstaged_spec {p : Playback n σ} {limit : Nat} (h : Core p limit)
    (hlen : n ≤ p.playout.staging.len) : Core p.unstaged limit ∧
      ∀ count, p.unstaged.energy limit count + n = p.energy limit count := by
  have hdrop : (p.playout.staging.samples.drop n).length + n = p.playout.staging.len := by
    rw [List.length_drop]
    exact Nat.sub_add_cancel hlen
  refine ⟨⟨h.sound, h.past, h.steady, h.capacity, ?_, h.ready, h.bounded⟩, fun count => ?_⟩
  · have := h.staging_le
    show (p.playout.staging.samples.drop n).length ≤ n * 4 + 16
    omega
  · rw [energy, energy, staged, staged, ← hdrop]
    show ((p.playout.staging.samples.drop n).length - maxRatio * p.playout.resampler.phase +
      maxRatio * n * (p.patience limit count : ℚ)) + n = _
    push_cast
    ring

/-- A tick takes its frame out of the FIFO, which holds it. -/
theorem tickResampled_ticked {p : Playback n σ} {limit : Nat} (h : Core p limit) (hn0 : 0 < n)
    (hn : n ≤ 240) (hp : p.playout.controller.primed = true) (out : Samples n) :
    Ticked decode p (p.tickResampled decode out).2 limit := by
  obtain ⟨hrated, hratio⟩ := rated_spec h
  obtain ⟨hcore, -, hdrift, hcount, hlatest, hcases⟩ :=
    fillStaging_cases decode hn fillRounds hrated hratio
  have henergy := fun count => @fillStaging_energy n σ decode limit count hn fillRounds _ hrated hratio
  have hfull := fillStaging_full decode hn fillRounds hrated.fed (by
    obtain ⟨-, hs⟩ := hrated.ready.step_bounds
    have hlen : (0 : ℚ) ≤ p.rated.playout.staging.len * p.rated.playout.resampler.step :=
      mul_nonneg (Nat.cast_nonneg _) (by have := hrated.ready.step_bounds.1; linarith)
    have hph := hrated.ready.phase_lt
    have hpr : (0 : ℚ) ≤ p.rated.playout.resampler.primed := Nat.cast_nonneg _
    have hn1 : (1 : ℚ) ≤ n := by exact_mod_cast hn0
    have hmul := mul_le_mul_of_nonneg_left hs (show (0 : ℚ) ≤ n by linarith)
    rw [supply]
    push_cast
    linarith)
  rcases hcases with ⟨hlive, hidle⟩ | ⟨hlive, hprimed⟩
  · rw [tickResampled_outage decode hlive]
    generalize fillStaging decode fillRounds p.rated = r at hcore hdrift hcount hlatest hidle ⊢
    have hidle' : Idle { r.2 with playout := r.2.playout.resetStream } := ⟨rfl, hidle.started⟩
    exact ⟨⟨hcore.sound, hcore.past, hcore.steady.reset, hcore.capacity, Nat.zero_le _,
      HermiteResampler.Ready.new.setRatio _, hcore.bounded⟩, hdrift, hcount, hlatest,
      Or.inr ⟨hidle', rfl, fun _ => rfl⟩, fun _ _ => Or.inr (Or.inl hidle')⟩
  · have hlen := hfull hlive
    rw [tickResampled_live decode hlive hlen]
    have hlive' : ¬ (fillStaging decode fillRounds p.rated).1 = false := by
      rw [hlive]
      exact Bool.noConfusion
    generalize fillStaging decode fillRounds p.rated = r at hcore hdrift hcount hlatest hprimed henergy hlen hlive' ⊢
    obtain ⟨hcore', henergy'⟩ := unstaged_spec hcore hlen
    obtain ⟨a1, a2, a3, a4, a5, a6, a7⟩ :=
      applyStepAdjustment_spec hcore' fun i => (r.2.playout.staging.samples.take n).getD i 0
    refine ⟨a1, a3.trans hdrift, a6.trans hcount, a7.trans hlatest, Or.inl (a2.trans (hprimed.trans hp)),
      fun count hc => ?_⟩
    rcases henergy count hc with hnew | hno | hle
    · exact Or.inl (hasPlayed_mono (fun _ hm => a4 ▸ hm) hnew)
    · exact absurd hno hlive'
    · have ha := a5 count
      have hu := henergy' count
      have hstart : p.rated.energy limit count = p.energy limit count := rfl
      exact Or.inr (Or.inr (by linarith))

/-- A new frame at the read position is played by the first pull. -/
theorem decodeNext_plays {p : Playback n σ} {count m : Nat} {f : Frame} {data : Bytes}
    {timestamp : UInt32} (hc : Since decode p.log count) (hins : p.playout.insertPending = false)
    (hs : p.log.Sound) (hframe : p.log.buffer.popNext.1 = .frame data timestamp)
    (hm : p.log.latest p.log.buffer.nextSeq = some (m, f)) (hle : count ≤ m) :
    (p.decodeNext decode).2.hasPlayed count = true := by
  obtain ⟨-, k, hk, -⟩ := hs.frame hframe
  obtain ⟨rfl, rfl⟩ := Prod.mk.inj (Option.some.inj (hm.symm.trans hk))
  have hok := hc.decodable _ _ _ hm hle p.playout.decoder p.playout.decodeBuf
  unfold decodeNext
  rw [if_neg (by rw [hins]; exact Bool.false_ne_true)]
  unfold popDecoded
  rw [hframe]
  dsimp only at hok ⊢
  rw [if_pos hok, hasPlayed, List.any_append, hm]
  simp [hle]

theorem applyStepAdjustment_played (p : Playback n σ) (out : Samples n) :
    (p.applyStepAdjustment out).played = p.played := by
  unfold applyStepAdjustment
  split
  · dsimp only
    split <;> rfl
  · rfl

theorem tickStepped_plays {p : Playback n σ} {limit count : Nat} (h : Core p limit)
    (hplays : (p.decodeNext decode).2.hasPlayed count = true) :
    (p.tickStepped decode).2.hasPlayed count = true := by
  obtain ⟨hcore, -, -, hplayed, -⟩ := pullDecoded_cases decode h
  have hpull : (p.pullDecoded decode).2.hasPlayed count = true := by
    rw [hasPlayed, hplayed]
    exact hplays
  rw [tickStepped]
  generalize p.pullDecoded decode = r at hcore hpull ⊢
  obtain ⟨hit, q⟩ := r
  dsimp only at hcore hpull ⊢
  cases hit with
  | none => exact hpull
  | some hit =>
    show (q.applyStepAdjustment q.playout.decodeBuf).hasPlayed count = true
    rw [hasPlayed, applyStepAdjustment_played]
    exact hpull

theorem tickResampled_plays {p : Playback n σ} {limit count : Nat} (h : Core p limit) (hn : n ≤ 240)
    (hlen : p.playout.staging.len < n)
    (hplays : (p.rated.decodeNext decode).2.hasPlayed count = true) (out : Samples n) :
    (p.tickResampled decode out).2.hasPlayed count = true := by
  obtain ⟨hrated, hratio⟩ := rated_spec h
  have hcore' := (fillStaging_cases decode hn fillRounds hrated hratio).1
  -- The first round pulls, since the FIFO is not full.
  have hfill : (fillStaging decode fillRounds p.rated).2.hasPlayed count = true := by
    obtain ⟨hcore, hkeeps, -, hplayed, -⟩ := pullDecoded_cases decode hrated
    have hpull : (p.rated.pullDecoded decode).2.hasPlayed count = true := by
      rw [hasPlayed, hplayed]
      exact hplays
    have hlen' : p.rated.playout.staging.len < n := hlen
    rw [fillRounds, fillStaging, if_pos hlen']
    generalize p.rated.pullDecoded decode = r at hcore hkeeps hpull ⊢
    obtain ⟨hit, q⟩ := r
    dsimp only at hcore hkeeps hpull ⊢
    cases hit with
    | none => exact hpull
    | some hit =>
      have hstaging : q.playout.staging.len < n := by rw [hkeeps.staging]; exact hlen'
      have hrat : q.playout.resampler.ratio ≤ maxRatio := by rw [hkeeps.resampler]; exact hratio
      obtain ⟨hcore', hr', -⟩ := stage_spec hcore hn hstaging hrat
      exact hasPlayed_mono (fillStaging_cases decode hn 5 hcore' (hr'.trans_le hrat)).2.1 hpull
  unfold tickResampled
  dsimp only
  split
  · rw [hasPlayed, applyStepAdjustment_played]
    exact hfill
  · exact hfill

theorem tick_eq (p : Playback n σ) (out : Samples n) : p.tick decode out =
    if p.prime.1 = true then
      if p.playout.driftEnabled then p.prime.2.tickResampled decode out
      else p.prime.2.tickStepped decode
    else ((false, fun _ => 0), p.prime.2) := by
  rw [tick, prime]
  dsimp only
  by_cases hgo : (p.playout.controller.prePop p.log.buffer.depth p.log.buffer.isStarted).1 = true
  · rw [if_neg (not_not.mpr hgo), if_pos hgo]
  · rw [if_pos hgo, if_neg hgo]

end Playback

end OnlineJam
