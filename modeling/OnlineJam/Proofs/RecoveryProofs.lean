import OnlineJam.Lib.Potential
import OnlineJam.Proofs.PlayoutProofs
import OnlineJam.Proofs.PrimingProofs

/-!
# Proofs: when a stream that starts again is heard

A primed playout counts misses and gives up the old position in time; one that waits for its first frames
plays as soon as they are deep enough. What is left is a playout that waits at a position the new stream
has not reached: it counts nothing.
-/

namespace OnlineJam

open OnlineJam.Lib

variable {n : Nat} {σ : Type} (decode : σ → Option Bytes → Samples n → Bool × Samples n × σ)

theorem PlayoutController.new_steady {sampleRate : Nat}
    (h : 0 < (PlayoutController.new n sampleRate).resetAfterMisses) :
    (PlayoutController.new n sampleRate).Steady
      (PlayoutController.new n sampleRate).resetAfterMisses :=
  ⟨rfl, rfl, le_rfl, (by decide : (2 : Int) ≤ 20), rfl, h⟩

namespace Playback

/-! ## Reachable states -/

/-- What holds between the ticks. -/
structure Sane (p : Playback n σ) (limit : Nat) : Prop where
  core : Core p limit
  blank : p.playout.controller.primed = false → Blank p
  unread : p.playout.controller.primed = false → p.log.buffer.Unread

theorem Sane.new (decoder : σ) {sampleRate : Nat} (driftCorrection : Bool)
    (h : 0 < (PlayoutController.new n sampleRate).resetAfterMisses) :
    Sane (new decoder sampleRate none driftCorrection : Playback n σ)
      (PlayoutController.new n sampleRate).resetAfterMisses where
  core :=
    { sound := .new
      past := fun m hm => by cases hm
      steady := by
        have hs := PlayoutController.new_steady h
        cases driftCorrection
        · exact hs
        · exact ⟨hs.minFrames, hs.maxFrames, hs.target_ge, hs.target_le, hs.resetAfterMisses, hs.misses⟩
      capacity := rfl
      staging_le := Nat.zero_le _
      ready := .new
      bounded := .new }
  blank := fun _ => ⟨rfl, fun _ => rfl⟩
  unread := fun _ hs => by cases hs

section Arriving

variable {p : Playback n σ} {limit : Nat} (seq : UInt16) (timestamp : UInt32) (payload : Bytes)
  (jitterUs : ℚ)

/-- A frame that arrives is pushed. -/
theorem arrive_buffer : (p.arrive seq timestamp payload jitterUs).log.buffer =
    (p.log.buffer.push seq timestamp payload).2.publishJitterUs jitterUs := by
  rw [← BufferLog.push_buffer]
  rfl

theorem arrive_slots : (p.arrive seq timestamp payload jitterUs).log.buffer.slots =
    (p.log.buffer.push seq timestamp payload).2.slots := by
  rw [arrive_buffer]
  rfl

theorem arrive_cursors :
    (p.arrive seq timestamp payload jitterUs).log.buffer.started =
      (p.log.buffer.push seq timestamp payload).2.started ∧
    (p.arrive seq timestamp payload jitterUs).log.buffer.nextSeq =
      (p.log.buffer.push seq timestamp payload).2.nextSeq ∧
    (p.arrive seq timestamp payload jitterUs).log.buffer.newestSeq =
      (p.log.buffer.push seq timestamp payload).2.newestSeq := by
  rw [arrive_buffer]
  exact ⟨rfl, rfl, rfl⟩

theorem arrive_ahead : (p.arrive seq timestamp payload jitterUs).log.buffer.ahead =
    (p.log.buffer.push seq timestamp payload).2.ahead := by
  obtain ⟨-, h1, h2⟩ := arrive_cursors (p := p) seq timestamp payload jitterUs
  rw [JitterBuffer.ahead, JitterBuffer.ahead, h1, h2]

theorem Core.arrive (h : Core p limit) : Core (p.arrive seq timestamp payload jitterUs) limit where
  sound := (h.sound.push seq timestamp payload).publish jitterUs
  past := by
    intro m hm
    have hlt := h.past m hm
    rcases BufferLog.push_cases h.sound seq timestamp payload with ⟨hc, -⟩ | ⟨hc, -⟩
    · exact hlt.trans_eq hc.symm
    · exact (Nat.lt_succ_of_lt hlt).trans_eq hc.symm
  steady := h.steady
  capacity := h.capacity
  staging_le := h.staging_le
  ready := h.ready
  bounded := h.bounded

theorem Sane.arrive (h : Sane p limit) : Sane (p.arrive seq timestamp payload jitterUs) limit where
  core := h.core.arrive seq timestamp payload jitterUs
  blank := fun hp => ⟨(h.blank hp).insertPending, (h.blank hp).staging⟩
  unread := by
    intro hp
    refine ((h.unread hp).push h.core.sound.placed seq ⟨timestamp, payload⟩).of_sameStream ?_
    obtain ⟨h1, h2, h3⟩ := arrive_cursors (p := p) seq timestamp payload jitterUs
    exact ⟨arrive_slots seq timestamp payload jitterUs, h2, h3, h1⟩

theorem backlog_arrive (h : Core p limit) {count : Nat} (hc : count ≤ p.log.count) :
    (p.arrive seq timestamp payload jitterUs).log.backlog count ⊆ p.log.backlog count :=
  BufferLog.backlog_push h.sound hc seq timestamp payload

theorem Since.arrive {count : Nat} (h : Core p limit) (hc : Since decode p.log count)
    (hd : Decodable decode payload) :
    Since decode (p.arrive seq timestamp payload jitterUs).log count := by
  rcases BufferLog.push_cases h.sound seq timestamp payload with ⟨h1, h2, -⟩ | ⟨h1, h2, -⟩
  · exact hc.of_log decode h1 h2
  · refine ⟨?_, fun s m f hm hle => ?_⟩
    · show count ≤ (p.log.push seq timestamp payload).count
      rw [h1]
      exact Nat.le_succ_of_le hc.count_le
    · have hm' : (p.log.push seq timestamp payload).latest s = some (m, f) := hm
      rw [h2] at hm'
      by_cases he : s = seq
      · rw [he, Function.update_self] at hm'
        cases hm'
        exact hd
      · rw [Function.update_of_ne he] at hm'
        exact hc.decodable s m f hm' hle

/-- A frame that arrives leaves the rest of the playback alone. -/
theorem energy_arrive {count : Nat} (h : Core p limit) (hc : count ≤ p.log.count) :
    (p.arrive seq timestamp payload jitterUs).energy limit count ≤ p.energy limit count := by
  have hcard := Finset.card_le_card (backlog_arrive seq timestamp payload jitterUs h hc)
  have hpat : (p.arrive seq timestamp payload jitterUs).patience limit count ≤
      p.patience limit count :=
    Nat.add_le_add_right (Nat.mul_le_mul_left limit hcard) _
  exact add_le_add_right (mul_le_mul_of_nonneg_left (Nat.cast_le.mpr hpat)
    (mul_nonneg (by norm_num [maxRatio]) (Nat.cast_nonneg _))) _

end Arriving

/-! ## Ticks -/

/-- The next tick finds the stream primed, or primes it. -/
def Goes (p : Playback n σ) : Prop :=
  p.playout.controller.primed = true ∨
    (p.log.buffer.started = true ∧ p.playout.controller.target ≤ p.log.buffer.depth)

theorem prime_waits {p : Playback n σ} (h : ¬ p.Goes) : p.prime = (false, p) := by
  rw [Goes, not_or] at h
  rw [prime, PlayoutController.prePop, if_pos h.1, JitterBuffer.isStarted, if_neg h.2]

/-- The playback as the pulls of a tick find it. -/
def primed (p : Playback n σ) : Playback n σ :=
  if p.playout.controller.primed then p
  else
    { p with playout := { p.playout with
        controller := { p.playout.controller with primed := true, consecutiveMisses := 0 } } }

theorem prime_goes {p : Playback n σ} (h : p.Goes) : p.prime = (true, p.primed) := by
  rw [prime, PlayoutController.prePop, primed]
  by_cases hp : p.playout.controller.primed = true
  · rw [if_neg (not_not.mpr hp), if_pos hp]
  · rw [if_pos hp, if_neg hp, JitterBuffer.isStarted, if_pos (h.resolve_left hp)]

/-- Otherwise the tick is silent and changes nothing. -/
theorem tick_waits {p : Playback n σ} (h : ¬ p.Goes) (out : Samples n) :
    p.tick decode out = ((false, fun _ => 0), p) := by
  rw [tick_eq, prime_waits h, if_neg Bool.false_ne_true]

theorem tick_goes {p : Playback n σ} (h : p.Goes) (out : Samples n) : p.tick decode out =
    if p.playout.driftEnabled then p.primed.tickResampled decode out else p.primed.tickStepped decode := by
  rw [tick_eq, prime_goes h, if_pos rfl]

theorem primed_spec {p : Playback n σ} {limit : Nat} (h : Core p limit) : Core p.primed limit ∧
    p.primed.playout.controller.primed = true ∧ p.primed.log = p.log ∧ p.primed.played = p.played ∧
    p.primed.playout.driftEnabled = p.playout.driftEnabled ∧
    p.primed.playout.staging = p.playout.staging ∧
    p.primed.playout.resampler = p.playout.resampler ∧
    p.primed.playout.insertPending = p.playout.insertPending := by
  have hpos : 0 < limit := Nat.zero_lt_of_lt h.steady.misses
  unfold primed
  split
  · exact ⟨h, ‹_›, rfl, rfl, rfl, rfl, rfl, rfl⟩
  · exact ⟨⟨h.sound, h.past, ⟨h.steady.minFrames, h.steady.maxFrames, h.steady.target_ge,
      h.steady.target_le, h.steady.resetAfterMisses, hpos⟩, h.capacity, h.staging_le, h.ready,
      h.bounded⟩, rfl, rfl, rfl, rfl, rfl, rfl, rfl⟩

theorem tick_ticked {p : Playback n σ} {limit : Nat} (h : Core p limit) (hn0 : 0 < n) (hn : n ≤ 240)
    (hgo : p.Goes) (out : Samples n) : Ticked decode p.primed (p.tick decode out).2 limit := by
  obtain ⟨hcore, hp, -, -, hd, -⟩ := primed_spec h
  rw [tick_goes decode hgo]
  split
  · exact tickResampled_ticked decode hcore hn0 hn hp out
  · exact tickStepped_ticked decode hcore hp (hd.trans (Bool.eq_false_of_not_eq_true ‹_›))

theorem Sane.tick {p : Playback n σ} {limit : Nat} (h : Sane p limit) (hn0 : 0 < n) (hn : n ≤ 240)
    (out : Samples n) : Sane (p.tick decode out).2 limit ∧
      (p.tick decode out).2.log.count = p.log.count ∧
      (p.tick decode out).2.log.latest = p.log.latest := by
  by_cases hgo : p.Goes
  · have ht := tick_ticked decode h.core hn0 hn hgo out
    obtain ⟨-, -, hlog, -⟩ := primed_spec h.core
    rw [ht.count, ht.latest, hlog]
    refine ⟨⟨ht.core, fun hp => ?_, fun hp hs => ?_⟩, rfl, rfl⟩
    · rcases ht.outcome with ho | ⟨-, ho⟩
      · rw [ho] at hp
        cases hp
      · exact ho
    · rcases ht.outcome with ho | ⟨ho, -⟩
      · rw [ho] at hp
        cases hp
      · rw [ho.started] at hs
        cases hs
  · rw [tick_waits decode hgo]
    exact ⟨h, rfl, rfl⟩

/-- The run lemma. -/
theorem Sane.run {p : Playback n σ} {limit : Nat} (h : Sane p limit) (hn0 : 0 < n) (hn : n ≤ 240)
    (es : List (PlaybackEvent n)) : Sane (p.run decode es) limit := by
  induction es generalizing p with
  | nil => exact h
  | cons e es ih =>
    cases e with
    | arrive seq timestamp payload jitterUs => exact ih (h.arrive seq timestamp payload jitterUs)
    | tick out => exact ih (h.tick decode hn0 hn out).1

/-! ## Rounds -/

theorem Since.start {log : BufferLog} (h : log.Sound) : Since decode log log.count :=
  ⟨le_rfl, fun s m f hm hle => absurd (h.numbered s m f hm) (Nat.not_lt.mpr hle)⟩

section Rounds

variable {p : Playback n σ} {limit count : Nat} {s : UInt16} {frames : Nat → StreamFrame n}

/-- The playback when the frame of a round has arrived, before its tick. -/
def arrived (p : Playback n σ) (s : UInt16) (frames : Nat → StreamFrame n) (k : Nat) : Playback n σ :=
  (p.resume decode s frames k).arrive (s + UInt16.ofNat k) (frames k).timestamp (frames k).payload
    (frames k).jitterUs

theorem resume_succ (k : Nat) : p.resume decode s frames (k + 1) =
    ((arrived decode p s frames k).tick decode (frames k).out).2 := rfl

theorem resume_waits {k : Nat} (h : ¬ (arrived decode p s frames k).Goes) :
    p.resume decode s frames (k + 1) = arrived decode p s frames k := by
  rw [resume_succ, tick_waits decode h]

/-- The frames fit into a slot and can be decoded. -/
def Playable (frames : Nat → StreamFrame n) : Prop :=
  ∀ k, (frames k).payload.length ≤ maxFrameBytes ∧ Decodable decode (frames k).payload

/-- The bound on the energy of a playback with a backlog of this size. -/
theorem energy_le (h : Core p limit) {size : Nat} (hsize : (p.log.backlog count).card ≤ size) :
    p.energy limit count ≤ n * 4 + 16 + maxRatio * n * (limit * (size + 1)) := by
  have hlen : (p.playout.staging.len : ℚ) ≤ n * 4 + 16 := by exact_mod_cast h.staging_le
  have hph := mul_nonneg (show (0 : ℚ) ≤ maxRatio by norm_num [maxRatio]) h.ready.phase_nonneg
  have hpat : p.patience limit count ≤ limit * (size + 1) := by
    rw [patience, Nat.mul_succ]
    exact Nat.add_le_add (Nat.mul_le_mul_left limit hsize) (Nat.sub_le _ _)
  have hpat' : (p.patience limit count : ℚ) ≤ limit * (size + 1) := by exact_mod_cast hpat
  have hmul := mul_le_mul_of_nonneg_left hpat'
    (mul_nonneg (show (0 : ℚ) ≤ maxRatio by norm_num [maxRatio]) (Nat.cast_nonneg n))
  rw [energy, staged]
  linarith

theorem energy_ge (h : Core p limit) : -2 ≤ p.energy limit count := by
  have hph := h.ready.phase_lt
  have hlen : (0 : ℚ) ≤ p.playout.staging.len := Nat.cast_nonneg _
  have hpat : 0 ≤ maxRatio * n * (p.patience limit count : ℚ) :=
    mul_nonneg (mul_nonneg (by norm_num [maxRatio]) (Nat.cast_nonneg _)) (Nat.cast_nonneg _)
  have hmul : maxRatio * p.playout.resampler.phase ≤ maxRatio * (103 / 100) :=
    mul_le_mul_of_nonneg_left hph.le (by norm_num [maxRatio])
  rw [energy, staged]
  norm_num [maxRatio] at hmul hpat ⊢
  linarith

variable (hn0 : 0 < n) (hn : n ≤ 240) (hframes : Playable decode frames)

include hn0 hn hframes

theorem Sane.resume (h : Sane p limit) (hc : Since decode p.log count) (k : Nat) :
    Sane (p.resume decode s frames k) limit ∧ Since decode (p.resume decode s frames k).log count := by
  induction k with
  | zero => exact ⟨h, hc⟩
  | succ k ih =>
    have hsince := Since.arrive decode (s + UInt16.ofNat k) (frames k).timestamp (frames k).payload
      (frames k).jitterUs ih.1.core ih.2 (hframes k).2
    obtain ⟨hsane, hcount, hlatest⟩ := (ih.1.arrive (s + UInt16.ofNat k) (frames k).timestamp
      (frames k).payload (frames k).jitterUs).tick decode hn0 hn (frames k).out
    exact ⟨hsane, hsince.of_log decode hcount hlatest⟩

/-- A stream that is primed, or is primed by the next tick, plays a new frame or is given up in time. -/
theorem live_phase (h : Sane p limit) (hc : Since decode p.log count) {k size rounds : Nat}
    (hgo : (arrived decode p s frames k).Goes)
    (hsize : ((p.resume decode s frames k).log.backlog count).card ≤ size)
    (hrounds : (n : ℚ) * 4 + 18 + maxRatio * n * (limit * (size + 1)) < (rounds + 1) * n) :
    ∃ j, j ≤ rounds + 1 ∧ ((p.resume decode s frames (k + j)).hasPlayed count = true ∨
      Idle (p.resume decode s frames (k + j))) := by
  obtain ⟨hsane, hsince⟩ := h.resume decode (s := s) hn0 hn hframes hc k
  have hcore : Core (arrived decode p s frames k) limit := hsane.core.arrive _ _ _ _
  have hticked := tick_ticked decode hcore hn0 hn hgo (frames k).out
  obtain ⟨hcore', -, hlog, -⟩ := primed_spec hcore
  have hsince' : Since decode (arrived decode p s frames k).primed.log count := by
    rw [hlog]
    exact Since.arrive decode _ _ _ _ hsane.core hsince (hframes k).2
  have hcard : ((arrived decode p s frames k).primed.log.backlog count).card ≤ size := by
    rw [hlog]
    exact (Finset.card_le_card (backlog_arrive _ _ _ _ hsane.core hsince.count_le)).trans hsize
  have hmax := energy_le hcore' hcard
  rcases hticked.energy count hsince' with hnew | hidle | hle
  · exact ⟨1, Nat.le_add_left 1 rounds, Or.inl hnew⟩
  · exact ⟨1, Nat.le_add_left 1 rounds, Or.inr hidle⟩
  · rcases hticked.outcome with hp | ⟨hidle, -⟩
    · -- The potential argument, from the state after this tick.
      have hstep : ∀ j, Core (p.resume decode s frames (k + 1 + j)) limit ∧
            (p.resume decode s frames (k + 1 + j)).playout.controller.primed = true →
          ¬ ((p.resume decode s frames (k + 1 + (j + 1))).hasPlayed count = true ∨
            Idle (p.resume decode s frames (k + 1 + (j + 1)))) →
          (Core (p.resume decode s frames (k + 1 + (j + 1))) limit ∧
            (p.resume decode s frames (k + 1 + (j + 1))).playout.controller.primed = true) ∧
          (p.resume decode s frames (k + 1 + (j + 1))).energy limit count + n ≤
            (p.resume decode s frames (k + 1 + j)).energy limit count := by
        rintro j ⟨hqcore, hqp⟩ hno
        obtain ⟨-, hqsince⟩ := h.resume decode (s := s) hn0 hn hframes hc (k + 1 + j)
        have hacore : Core (arrived decode p s frames (k + 1 + j)) limit := hqcore.arrive _ _ _ _
        have ht := tick_ticked decode hacore hn0 hn (Or.inl hqp) (frames (k + 1 + j)).out
        have hsame : (arrived decode p s frames (k + 1 + j)).primed =
            arrived decode p s frames (k + 1 + j) := if_pos hqp
        rw [hsame] at ht
        have hasince : Since decode (arrived decode p s frames (k + 1 + j)).log count :=
          Since.arrive decode _ _ _ _ hqcore hqsince (hframes (k + 1 + j)).2
        have hle' : (arrived decode p s frames (k + 1 + j)).energy limit count ≤
            (p.resume decode s frames (k + 1 + j)).energy limit count :=
          energy_arrive _ _ _ _ hqcore hqsince.count_le
        rcases ht.energy count hasince with hnew | hidle | hdown
        · exact absurd (Or.inl hnew) hno
        · exact absurd (Or.inr hidle) hno
        · refine ⟨⟨ht.core, ?_⟩, hdown.trans hle'⟩
          rcases ht.outcome with ho | ⟨hidle, -⟩
          · exact ho
          · exact absurd (Or.inr hidle) hno
      have hfirst : (p.resume decode s frames (k + 1 + 0)).energy limit count + n ≤
          (arrived decode p s frames k).primed.energy limit count := hle
      obtain ⟨j, hj, hgoal⟩ := @exists_goal_of_potential _
        (fun j => p.resume decode s frames (k + 1 + j)) (fun q => q.hasPlayed count = true ∨ Idle q)
        (fun q => Core q limit ∧ q.playout.controller.primed = true)
        (fun q => q.energy limit count) n (-2) ⟨hticked.core, hp⟩ hstep
        (fun q hq => energy_ge hq.1) rounds (by linarith)
      exact ⟨1 + j, by omega, by rw [← Nat.add_assoc]; exact hgoal⟩
    · exact ⟨1, Nat.le_add_left 1 rounds, Or.inr hidle⟩

/-! ## From silence -/

omit hn0 hn hframes

/-- A stream that was started with a new frame at `next`, and is `j` frames deep. -/
structure Filling (q : Playback n σ) (count : Nat) (next : UInt16) (j : Nat) : Prop where
  unprimed : q.playout.controller.primed = false
  blank : Blank q
  started : q.log.buffer.started = true
  nextSeq : q.log.buffer.nextSeq = next
  ahead : q.log.buffer.ahead + 1 = j
  head : (q.log.buffer.slots (slotOf next)).state = .written ∧
    (q.log.buffer.slots (slotOf next)).seq = next
  fresh : ∃ m f, q.log.latest next = some (m, f) ∧ count ≤ m

theorem Filling.first {q : Playback n σ} (h : Sane q limit) (hidle : Idle q)
    (hc : count ≤ q.log.count) (next : UInt16) (timestamp : UInt32) {payload : Bytes} (jitterUs : ℚ)
    (hlen : payload.length ≤ maxFrameBytes) :
    Filling (q.arrive next timestamp payload jitterUs) count next 1 := by
  obtain ⟨h1, h2, h3⟩ := JitterBuffer.push_first hidle.started next timestamp hlen
  obtain ⟨c1, c2, c3⟩ := arrive_cursors (p := q) next timestamp payload jitterUs
  have hstored : (q.log.buffer.push next timestamp payload).1 = .stored := by
    have hfree : ¬ (q.log.buffer.slots (slotOf next)).has next = true := fun hh =>
      h.core.sound.placed.idle hidle.started _ ((Slot.has_iff _ _).mp hh).1
    rw [JitterBuffer.push, if_neg (Nat.not_lt.mpr hlen),
      if_pos (by rw [hidle.started]; exact Bool.false_ne_true), JitterBuffer.store, if_neg hfree]
  rcases BufferLog.push_cases h.core.sound next timestamp payload with ⟨hcount, -⟩ | ⟨-, hl, slot, hw, hseq, hs⟩
  · rw [BufferLog.push] at hcount
    dsimp only at hcount
    rw [if_pos hstored] at hcount
    exact absurd hcount (Nat.succ_ne_self _)
  · have hslot : (q.arrive next timestamp payload jitterUs).log.buffer.slots (slotOf next) = slot := by
      show (q.log.push next timestamp payload).buffer.slots (slotOf next) = slot
      rw [hs, Function.update_self]
    refine ⟨hidle.primed, ⟨(h.blank hidle.primed).insertPending, (h.blank hidle.primed).staging⟩,
      c1.trans h1, c2.trans h2, ?_, ?_, q.log.count, ⟨timestamp, payload⟩, ?_, hc⟩
    · rw [arrive_ahead, h3]
    · rw [hslot]
      exact ⟨hw, hseq⟩
    · show (q.log.push next timestamp payload).latest next = _
      rw [hl, Function.update_self]

/-- The next frame of the stream goes into a slot of its own. -/
theorem Filling.next {q : Playback n σ} {next : UInt16} {j : Nat} (h : Sane q limit)
    (hf : Filling q count next j) (hj0 : 0 < j) (hj : j ≤ 63) (timestamp : UInt32) {payload : Bytes}
    (jitterUs : ℚ) (hlen : payload.length ≤ maxFrameBytes) :
    Filling (q.arrive (next + UInt16.ofNat j) timestamp payload jitterUs) count next (j + 1) := by
  have hdist : (next + UInt16.ofNat j - q.log.buffer.nextSeq).toNat = j := by
    rw [hf.nextSeq, ahead_add, UInt16.sub_self]
    have h0 : (0 : UInt16).toNat = 0 := rfl
    omega
  have hahead := hf.ahead
  have hnear : (next + UInt16.ofNat j - q.log.buffer.nextSeq).toNat ≤ 32767 := by omega
  have hmax := JitterBuffer.push_ahead hf.started hnear (by omega) timestamp hlen
  obtain ⟨n1, n2, -⟩ := JitterBuffer.push_near hf.started (Nat.le_succ_of_le hnear) timestamp hlen
  obtain ⟨c1, c2, -⟩ := arrive_cursors (p := q) (next + UInt16.ofNat j) timestamp payload jitterUs
  have hadd : (next + UInt16.ofNat j).toNat = (next.toNat + j) % 65536 := by
    have h1 := UInt16.toNat_add next (UInt16.ofNat j)
    have h2 : (UInt16.ofNat j).toNat = j % 65536 := UInt16.toNat_ofNat'
    omega
  have hne : next ≠ next + UInt16.ofNat j := by
    intro he
    have := congrArg UInt16.toNat he
    have := next.toNat_lt
    omega
  have hslot : slotOf next ≠ slotOf (next + UInt16.ofNat j) := by
    intro he
    have hval : next.toNat % 64 = (next + UInt16.ofNat j).toNat % 64 := congrArg Fin.val he
    have := next.toNat_lt
    omega
  refine ⟨hf.unprimed, ⟨hf.blank.insertPending, hf.blank.staging⟩, c1.trans n1,
    (c2.trans n2).trans hf.nextSeq, ?_, ?_, ?_⟩
  · rw [arrive_ahead, hmax]
    omega
  · rcases BufferLog.push_cases h.core.sound (next + UInt16.ofNat j) timestamp payload with
      ⟨-, -, hs⟩ | ⟨-, -, slot, -, -, hs⟩
    · show ((q.log.push _ _ _).buffer.slots _).state = _ ∧ ((q.log.push _ _ _).buffer.slots _).seq = _
      rw [hs]
      exact hf.head
    · show ((q.log.push _ _ _).buffer.slots _).state = _ ∧ ((q.log.push _ _ _).buffer.slots _).seq = _
      rw [hs, Function.update_of_ne hslot]
      exact hf.head
  · obtain ⟨m, f, hm, hle⟩ := hf.fresh
    refine ⟨m, f, ?_, hle⟩
    show (q.log.push _ _ _).latest next = _
    rcases BufferLog.push_cases h.core.sound (next + UInt16.ofNat j) timestamp payload with
      ⟨-, hl, -⟩ | ⟨-, hl, -⟩
    · rw [hl, hm]
    · rw [hl, Function.update_of_ne hne, hm]

/-- Once it is deep enough, the new frame at the read position is played. -/
theorem Filling.plays {q : Playback n σ} {next : UInt16} {j : Nat} (h : Core q limit)
    (hf : Filling q count next j) (hc : Since decode q.log count) (hn0 : 0 < n) (hn : n ≤ 240)
    (hgo : q.Goes) (out : Samples n) : (q.tick decode out).2.hasPlayed count = true := by
  obtain ⟨hcore, hp, hlog, -, hd, hst, -, hins⟩ := primed_spec h
  obtain ⟨m, f, hm, hle⟩ := hf.fresh
  have hhas : (q.log.buffer.slots (slotOf q.log.buffer.nextSeq)).has q.log.buffer.nextSeq = true := by
    rw [hf.nextSeq]
    exact (Slot.has_iff _ _).mpr hf.head
  obtain ⟨hframe, -⟩ := JitterBuffer.popNext_of_take hf.started rfl
    (JitterBuffer.take_of_has hhas (h.sound.fits ((Slot.has_iff _ _).mp hhas).1))
  rw [← hf.nextSeq] at hm
  rw [tick_goes decode hgo]
  split
  · rename_i hdrift
    have hempty : q.primed.playout.staging.len < n := by
      rw [hst, SampleFifo.len, hf.blank.staging hdrift]
      exact hn0
    refine tickResampled_plays decode hcore hn hempty ?_ out
    have hlog' : q.primed.rated.log = q.log := hlog
    exact decodeNext_plays decode (hlog' ▸ hc) (hins.trans hf.blank.insertPending) (hlog' ▸ h.sound)
      (by rw [hlog']; exact hframe) (by rw [hlog']; exact hm) hle
  · refine tickStepped_plays decode hcore ?_
    exact decodeNext_plays decode (hlog ▸ hc) (hins.trans hf.blank.insertPending) (hlog ▸ h.sound)
      (by rw [hlog]; exact hframe) (by rw [hlog]; exact hm) hle

/-- Until then it is not. -/
theorem Filling.waits {q : Playback n σ} {next : UInt16} {j : Nat} (h : Core q limit)
    (hf : Filling q count next j) (hj : j ≤ 63) (hno : ¬ q.Goes) : j ≤ 19 := by
  have hahead := hf.ahead
  have hdepth := JitterBuffer.depth_of_ahead hf.started (show q.log.buffer.ahead ≤ 32767 by omega)
  have htarget := h.steady.target_le
  rw [Goes, not_or, not_and] at hno
  have := hno.2 hf.started
  omega

include hn0 hn hframes

theorem idle_phase (h : Sane p limit) (hc : Since decode p.log count) (k : Nat)
    (hidle : Idle (p.resume decode s frames k)) :
    ∃ j, j ≤ 20 ∧ (p.resume decode s frames (k + j)).hasPlayed count = true := by
  by_contra hno
  have hfill : ∀ j, j ≤ 20 → Filling (p.resume decode s frames (k + (j + 1))) count
      (s + UInt16.ofNat k) (j + 1) ∧ j + 1 ≤ 19 := by
    intro j hj
    induction j with
    | zero =>
      obtain ⟨hsane, hsince⟩ := h.resume decode (s := s) hn0 hn hframes hc k
      have hf := Filling.first hsane hidle hsince.count_le (s + UInt16.ofNat k) (frames k).timestamp
        (frames k).jitterUs (hframes k).1
      have hcore : Core (arrived decode p s frames k) limit := hsane.core.arrive _ _ _ _
      have hasince : Since decode (arrived decode p s frames k).log count :=
        Since.arrive decode _ _ _ _ hsane.core hsince (hframes k).2
      by_cases hgo : (arrived decode p s frames k).Goes
      · exact absurd ⟨1, by omega, hf.plays decode hcore hasince hn0 hn hgo _⟩ hno
      · rw [← Nat.add_assoc, Nat.add_zero, resume_waits decode hgo]
        exact ⟨hf, by omega⟩
    | succ j ih =>
      obtain ⟨hf, hj'⟩ := ih (by omega)
      obtain ⟨hsane, hsince⟩ := h.resume decode (s := s) hn0 hn hframes hc (k + (j + 1))
      have hseq : s + UInt16.ofNat (k + (j + 1)) = s + UInt16.ofNat k + UInt16.ofNat (j + 1) := by
        rw [UInt16.ofNat_add, UInt16.add_assoc]
      have hf' : Filling (arrived decode p s frames (k + (j + 1))) count (s + UInt16.ofNat k)
          (j + 1 + 1) := by
        rw [arrived, hseq]
        exact hf.next hsane (by omega) (by omega) _ _ (hframes _).1
      have hcore : Core (arrived decode p s frames (k + (j + 1))) limit := hsane.core.arrive _ _ _ _
      have hasince : Since decode (arrived decode p s frames (k + (j + 1))).log count :=
        Since.arrive decode _ _ _ _ hsane.core hsince (hframes _).2
      by_cases hgo : (arrived decode p s frames (k + (j + 1))).Goes
      · exact absurd ⟨j + 2, by omega, hf'.plays decode hcore hasince hn0 hn hgo _⟩ hno
      · rw [← Nat.add_assoc k, resume_waits decode hgo]
        exact ⟨hf', hf'.waits hcore (by omega) hgo⟩
  have := (hfill 20 le_rfl).2
  omega

/-- A stream that is not late primes the playout that waits for it. -/
theorem waiting_phase (h : Sane p limit) (hc : Since decode p.log count) {k : Nat}
    (hunprimed : (p.resume decode s frames k).playout.controller.primed = false)
    (hstarted : (p.resume decode s frames k).log.buffer.started = true)
    (hahead : (p.resume decode s frames k).log.buffer.ahead ≤ 32767)
    (hnear : (s + UInt16.ofNat k - (p.resume decode s frames k).log.buffer.nextSeq).toNat ≤ 32767) :
    ∃ j, j ≤ 19 ∧ (arrived decode p s frames (k + j)).Goes ∧
      (p.resume decode s frames (k + j)).log.backlog count ⊆
        (p.resume decode s frames k).log.backlog count := by
  by_contra hno
  have hwait : ∀ j, j ≤ 20 →
      (p.resume decode s frames (k + j)).playout.controller.primed = false ∧
      (p.resume decode s frames (k + j)).log.buffer.started = true ∧
      (p.resume decode s frames (k + j)).log.buffer.nextSeq =
        (p.resume decode s frames k).log.buffer.nextSeq ∧
      (p.resume decode s frames (k + j)).log.buffer.ahead ≤ 32767 ∧
      (p.resume decode s frames (k + j)).log.backlog count ⊆
        (p.resume decode s frames k).log.backlog count ∧
      (0 < j → (s + UInt16.ofNat k - (p.resume decode s frames k).log.buffer.nextSeq).toNat + j ≤
        19) := by
    intro j hj
    induction j with
    | zero =>
      exact ⟨hunprimed, hstarted, rfl, hahead, Finset.Subset.refl _, fun h0 => absurd h0 (Nat.lt_irrefl 0)⟩
    | succ j ih =>
      obtain ⟨i1, i2, i3, i4, i5, i6⟩ := ih (by omega)
      obtain ⟨hsane, hsince⟩ := h.resume decode (s := s) hn0 hn hframes hc (k + j)
      have hcore : Core (arrived decode p s frames (k + j)) limit := hsane.core.arrive _ _ _ _
      -- The frame of this round is one further ahead than that of the round before.
      have hdist : (s + UInt16.ofNat (k + j) -
          (p.resume decode s frames (k + j)).log.buffer.nextSeq).toNat =
          (s + UInt16.ofNat k - (p.resume decode s frames k).log.buffer.nextSeq).toNat + j := by
        have hlt : (s + UInt16.ofNat k - (p.resume decode s frames k).log.buffer.nextSeq).toNat + j <
            65536 := by omega
        rw [i3, UInt16.ofNat_add, ← UInt16.add_assoc, ahead_add, Nat.mod_eq_of_lt hlt]
      have hnear' : (s + UInt16.ofNat (k + j) -
          (p.resume decode s frames (k + j)).log.buffer.nextSeq).toNat ≤ 32767 := by
        rcases Nat.eq_zero_or_pos j with rfl | hpos
        · exact hnear
        · have := i6 hpos
          omega
      have hmax := JitterBuffer.push_ahead i2 hnear' i4 (frames (k + j)).timestamp (hframes (k + j)).1
      obtain ⟨n1, n2, -⟩ := JitterBuffer.push_near i2 (Nat.le_succ_of_le hnear')
        (frames (k + j)).timestamp (hframes (k + j)).1
      obtain ⟨c1, c2, -⟩ := arrive_cursors (p := p.resume decode s frames (k + j))
        (s + UInt16.ofNat (k + j)) (frames (k + j)).timestamp (frames (k + j)).payload
        (frames (k + j)).jitterUs
      have hahead' : (arrived decode p s frames (k + j)).log.buffer.ahead =
          max (p.resume decode s frames (k + j)).log.buffer.ahead (s + UInt16.ofNat (k + j) -
            (p.resume decode s frames (k + j)).log.buffer.nextSeq).toNat :=
        (arrive_ahead _ _ _ _).trans hmax
      have hstarted' : (arrived decode p s frames (k + j)).log.buffer.started = true := c1.trans n1
      by_cases hgo : (arrived decode p s frames (k + j)).Goes
      · exact absurd ⟨j, by omega, hgo, i5⟩ hno
      · have hdepth := JitterBuffer.depth_of_ahead hstarted' (by omega)
        have htarget := hcore.steady.target_le
        have hlow : (arrived decode p s frames (k + j)).log.buffer.ahead ≤ 18 := by
          rw [Goes, not_or, not_and] at hgo
          have := hgo.2 hstarted'
          omega
        rw [← Nat.add_assoc, resume_waits decode hgo]
        refine ⟨i1, hstarted', (c2.trans n2).trans i3, by omega, ?_, fun _ => by omega⟩
        exact Finset.Subset.trans (backlog_arrive _ _ _ _ hsane.core hsince.count_le) i5
  have := (hwait 20 le_rfl).2.2.2.2.2 (by omega)
  omega

/-- While the frames are late and the playout waits, it goes on waiting. -/
theorem late_phase (h : Sane p limit) (hc : Since decode p.log count) (k : Nat)
    (hstarted : (p.resume decode s frames k).log.buffer.started = true)
    (hwait : ¬ (p.resume decode s frames k).Goes) (j : Nat)
    (hlate : ∀ i, i < j → 32768 <
      (s + UInt16.ofNat (k + i) - (p.resume decode s frames k).log.buffer.nextSeq).toNat) :
    JitterBuffer.SameStream (p.resume decode s frames k).log.buffer
      (p.resume decode s frames (k + j)).log.buffer ∧
    (p.resume decode s frames (k + j)).playout = (p.resume decode s frames k).playout ∧
    (p.resume decode s frames (k + j)).played = (p.resume decode s frames k).played ∧
    (p.resume decode s frames (k + j)).log.backlog count ⊆
      (p.resume decode s frames k).log.backlog count := by
  induction j with
  | zero => exact ⟨⟨rfl, rfl, rfl, rfl⟩, rfl, rfl, Finset.Subset.refl _⟩
  | succ j ih =>
    obtain ⟨i1, i2, i3, i4⟩ := ih fun i hi => hlate i (Nat.lt_succ_of_lt hi)
    obtain ⟨hsane, hsince⟩ := h.resume decode (s := s) hn0 hn hframes hc (k + j)
    have hpush := JitterBuffer.push_late (i1.started.trans hstarted)
      (by rw [i1.nextSeq]; exact hlate j (Nat.lt_succ_self j)) (frames (k + j)).timestamp
      (frames (k + j)).payload
    obtain ⟨c1, c2, c3⟩ := arrive_cursors (p := p.resume decode s frames (k + j))
      (s + UInt16.ofNat (k + j)) (frames (k + j)).timestamp (frames (k + j)).payload
      (frames (k + j)).jitterUs
    have hslots := arrive_slots (p := p.resume decode s frames (k + j)) (s + UInt16.ofNat (k + j))
      (frames (k + j)).timestamp (frames (k + j)).payload (frames (k + j)).jitterUs
    have hsame : JitterBuffer.SameStream (p.resume decode s frames k).log.buffer
        (arrived decode p s frames (k + j)).log.buffer :=
      ⟨(hslots.trans hpush.slots).trans i1.slots, (c2.trans hpush.nextSeq).trans i1.nextSeq,
        (c3.trans hpush.newestSeq).trans i1.newestSeq, (c1.trans hpush.started).trans i1.started⟩
    have hplayout : (arrived decode p s frames (k + j)).playout =
        (p.resume decode s frames k).playout := i2
    have hno : ¬ (arrived decode p s frames (k + j)).Goes := by
      rw [Goes, hplayout, JitterBuffer.depth, hsame.started, hsame.newestSeq, hsame.nextSeq]
      exact hwait
    rw [← Nat.add_assoc, resume_waits decode hno]
    exact ⟨hsame, hplayout, i3,
      Finset.Subset.trans (backlog_arrive _ _ _ _ hsane.core hsince.count_le) i4⟩

omit hn0 hn hframes

/-- With the newest number half the ring ahead the playout waits for good. -/
theorem half_phase (k : Nat) (hunprimed : (p.resume decode s frames k).playout.controller.primed = false)
    (htarget : 2 ≤ (p.resume decode s frames k).playout.controller.target)
    (hstarted : (p.resume decode s frames k).log.buffer.started = true)
    (hahead : (p.resume decode s frames k).log.buffer.ahead = 32768) (j : Nat) :
    (p.resume decode s frames (k + j)).log.buffer.started = true ∧
    (p.resume decode s frames (k + j)).log.buffer.ahead = 32768 ∧
    (p.resume decode s frames (k + j)).playout = (p.resume decode s frames k).playout ∧
    (p.resume decode s frames (k + j)).played = (p.resume decode s frames k).played := by
  induction j with
  | zero => exact ⟨hstarted, hahead, rfl, rfl⟩
  | succ j ih =>
    obtain ⟨i1, i2, i3, i4⟩ := ih
    obtain ⟨n1, n2, n3⟩ := JitterBuffer.push_half i1 i2 (s + UInt16.ofNat (k + j))
      (frames (k + j)).timestamp (frames (k + j)).payload
    obtain ⟨c1, -, -⟩ := arrive_cursors (p := p.resume decode s frames (k + j))
      (s + UInt16.ofNat (k + j)) (frames (k + j)).timestamp (frames (k + j)).payload
      (frames (k + j)).jitterUs
    have hs : (arrived decode p s frames (k + j)).log.buffer.started = true := c1.trans n1
    have ha : (arrived decode p s frames (k + j)).log.buffer.ahead = 32768 :=
      (arrive_ahead _ _ _ _).trans n3
    have hplayout : (arrived decode p s frames (k + j)).playout =
        (p.resume decode s frames k).playout := i3
    have hno : ¬ (arrived decode p s frames (k + j)).Goes := by
      rw [Goes, hplayout, hunprimed, JitterBuffer.depth_of_half hs ha]
      rintro (hp | ⟨-, hle⟩)
      · cases hp
      · omega
    rw [← Nat.add_assoc, resume_waits decode hno]
    exact ⟨hs, ha, hplayout, i4⟩

include hn0 hn hframes

/-- A stream that is primed, or is primed by the next tick, is heard in time. -/
theorem heard_of_goes (h : Sane p limit) (hc : Since decode p.log count) (hn1 : 120 ≤ n)
    (hlimit : limit ≤ 200) {k size : Nat} (hgo : (arrived decode p s frames k).Goes)
    (hsize : ((p.resume decode s frames k).log.backlog count).card ≤ size) (hsize' : size ≤ 64) :
    ∃ j, j ≤ 32 + limit * (size + 1) ∧
      (p.resume decode s frames (k + j)).hasPlayed count = true := by
  have hrounds : (n : ℚ) * 4 + 18 + maxRatio * n * (limit * (size + 1)) <
      (((11 + limit * (size + 1) : Nat) : ℚ) + 1) * n := by
    have hn1' : (120 : ℚ) ≤ n := by exact_mod_cast hn1
    have hmul : ((limit * (size + 1) : Nat) : ℚ) ≤ 13000 := by
      exact_mod_cast (Nat.mul_le_mul hlimit (Nat.succ_le_succ hsize')).trans (by decide)
    have hmul' := mul_le_mul_of_nonneg_left hmul (show (0 : ℚ) ≤ n by linarith)
    push_cast at hmul' ⊢
    rw [maxRatio]
    linarith
  obtain ⟨j, hj, hplayed | hidle⟩ := live_phase decode hn0 hn hframes h hc hgo hsize hrounds
  · exact ⟨j, by omega, hplayed⟩
  · obtain ⟨i, hi, hplayed⟩ := idle_phase decode hn0 hn hframes h hc (k + j) hidle
    exact ⟨j + i, by omega, by rw [← Nat.add_assoc]; exact hplayed⟩

end Rounds

end Playback

end OnlineJam
