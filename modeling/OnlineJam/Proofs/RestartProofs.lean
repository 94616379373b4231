import OnlineJam.Audio.Codec
import OnlineJam.Proofs.RecoveryProofs
import Mathlib.Algebra.Order.Floor.Semiring
import Mathlib.Tactic.FieldSimp

/-!
# Proofs: which restarts of a stream are heard

`reset_after_misses` counts only what a primed playout misses. A playout that waits for more frames at an
old position rejects the new stream as late, uncounted, until the stream has caught up.
-/

namespace OnlineJam

variable {n : Nat} {σ : Type} (decode : σ → Option Bytes → Samples n → Bool × Samples n × σ)

/-- Half a second of frames. -/
theorem PlayoutController.new_resetAfterMisses (h1 : 120 ≤ n) (h2 : n ≤ 240) :
    100 ≤ (PlayoutController.new n 48000).resetAfterMisses ∧
      (PlayoutController.new n 48000).resetAfterMisses ≤ 200 := by
  have h1' : (120 : ℚ) ≤ n := by exact_mod_cast h1
  have h2' : (n : ℚ) ≤ 240 := by exact_mod_cast h2
  have hpos : (0 : ℚ) < n := by linarith
  have hframes : (500000 : ℚ) / (n * 1000000 / (48000 : Nat)) = 24000 / n := by
    field_simp
    norm_num
  have hreset : (PlayoutController.new n 48000).resetAfterMisses = ⌊(24000 : ℚ) / n⌋₊ := by
    rw [← hframes]
    rfl
  rw [hreset]
  constructor
  · rw [Nat.le_floor_iff (by positivity), le_div_iff₀ hpos]
    push_cast
    linarith
  · refine Nat.floor_le_of_le ?_
    rw [div_le_iff₀ hpos]
    push_cast
    linarith

namespace Playback

variable {p : Playback n σ} {limit : Nat} {s : UInt16} {frames : Nat → StreamFrame n}

/-- How far behind the read position a late stream is. -/
theorem diff_of_late {next : UInt16} (h : 32768 < (s - next).toNat) :
    diff next s = 65536 - ((s - next).toNat : Int) := by
  have h1 := UInt16.toNat_sub next s
  have h2 := UInt16.toNat_sub s next
  have h3 := next.toNat_lt
  have h4 := s.toNat_lt
  rw [diff_eq_bmod, Int.bmod_def]
  omega

theorem diff_of_near {next : UInt16} (h : (s - next).toNat ≤ 32767) : diff next s ≤ 0 := by
  have h1 := UInt16.toNat_sub next s
  have h2 := UInt16.toNat_sub s next
  have h3 := next.toNat_lt
  have h4 := s.toNat_lt
  rw [diff_eq_bmod, Int.bmod_def]
  omega

theorem ahead_eq_iff (a b : UInt16) : a - b = 32768 ↔ (a - b).toNat = 32768 := by
  rw [← UInt16.toNat_inj]
  rfl

/-- A stream that was not read from and does not play is less than 20 frames deep. -/
theorem ahead_of_waits (h : Sane p limit) (hs : p.log.buffer.started = true)
    (hahead : p.log.buffer.ahead ≤ 32767) (hwait : ¬ p.Goes) : p.log.buffer.ahead ≤ 18 := by
  have hdepth := JitterBuffer.depth_of_ahead hs hahead
  have htarget := h.core.steady.target_le
  rw [Goes, not_or, not_and] at hwait
  have := hwait.2 hs
  omega

/-- Nothing that was stored later has been played. -/
theorem not_hasPlayed (h : Core p limit) : p.hasPlayed p.log.count = false := by
  rw [hasPlayed, List.any_eq_false]
  intro m hm
  have := h.past m hm
  simpa using this

theorem hasPlayed_congr {q : Playback n σ} (h : q.played = p.played) (count : Nat) :
    q.hasPlayed count = p.hasPlayed count := by
  rw [hasPlayed, hasPlayed, h]

/-! ## Heard -/

section Heard

variable (hn1 : 120 ≤ n) (hn : n ≤ 240) (hl1 : 100 ≤ limit) (hl : limit ≤ 200)
  (hframes : Playable decode frames)

include hn1 hn hl1 hl hframes

/-- A playout that goes has the backlog of the whole ring before it. -/
theorem heard_of_first_goes (h : Sane p limit) (hgo : (arrived decode p s frames 0).Goes) :
    ∃ k, k ≤ (ringSlots + 2) * limit ∧
      (p.resume decode s frames k).hasPlayed p.log.count = true := by
  obtain ⟨j, hj, hplayed⟩ := heard_of_goes decode (by omega) hn hframes h (Since.start decode h.core.sound)
    hn1 hl hgo (BufferLog.card_backlog_le _ _) le_rfl
  have hr : ringSlots = 64 := rfl
  rw [hr] at hj ⊢
  refine ⟨j, by omega, ?_⟩
  rwa [Nat.zero_add] at hplayed

/-- A stream that has not reached the read position by more than the playout can wait. -/
theorem heard_of_late (h : Sane p limit) (hs : p.log.buffer.started = true)
    (hahead : p.log.buffer.ahead ≤ 32767) (hwait : ¬ p.Goes)
    (hlate : 32768 < (s - p.log.buffer.nextSeq).toNat)
    (hbound : 65536 < (s - p.log.buffer.nextSeq).toNat + (ringSlots - 20) * limit) :
    ∃ k, k ≤ (ringSlots + 2) * limit ∧
      (p.resume decode s frames k).hasPlayed p.log.count = true := by
  have hc := Since.start decode h.core.sound
  have hn0 : 0 < n := by omega
  have hlt := (s - p.log.buffer.nextSeq).toNat_lt
  -- The rounds until the stream has caught up.
  obtain ⟨L, hL⟩ : ∃ L, (s - p.log.buffer.nextSeq).toNat + L = 65536 := ⟨_, Nat.add_sub_of_le hlt.le⟩
  obtain ⟨hsame, hplayout, -, hback⟩ := late_phase decode hn0 hn hframes h hc 0 hs hwait L
    (fun i hi => by
      show 32768 < (s + UInt16.ofNat (0 + i) - p.log.buffer.nextSeq).toNat
      rw [ahead_add]
      omega)
  rw [Nat.zero_add] at hsame hplayout hback
  have hunprimed : p.playout.controller.primed = false :=
    Bool.eq_false_of_not_eq_true fun hp => hwait (Or.inl hp)
  have haheadL : (p.resume decode s frames L).log.buffer.ahead = p.log.buffer.ahead := by
    rw [JitterBuffer.ahead, hsame.newestSeq, hsame.nextSeq]
    rfl
  obtain ⟨j, hj, hgo, hback'⟩ := waiting_phase decode hn0 hn hframes h hc (k := L)
    ((congrArg (fun c => c.controller.primed) hplayout).trans hunprimed) (hsame.started.trans hs)
    (haheadL.trans_le hahead) (by
      rw [hsame.nextSeq]
      show (s + UInt16.ofNat L - p.log.buffer.nextSeq).toNat ≤ 32767
      rw [ahead_add]
      omega)
  -- What is left of the old stream is what filled the buffer up to the depth it waits at.
  have hcard : ((p.resume decode s frames (L + j)).log.backlog p.log.count).card ≤ 20 := by
    have hfew : p.log.backlog p.log.count ⊆ (insert 32768 (Finset.range 19)).image
        fun d => slotOf (p.log.buffer.nextSeq + UInt16.ofNat d) := fun i hi =>
      (h.unread hunprimed).few h.core.sound.placed hs (ahead_of_waits h hs hahead hwait) i
        (BufferLog.mem_backlog.mp hi).1
    calc ((p.resume decode s frames (L + j)).log.backlog p.log.count).card
        ≤ (p.log.backlog p.log.count).card :=
          Finset.card_le_card (Finset.Subset.trans hback' hback)
      _ ≤ _ := Finset.card_le_card hfew
      _ ≤ (insert 32768 (Finset.range 19)).card := Finset.card_image_le
      _ ≤ 20 := Finset.card_insert_le _ _
  obtain ⟨i, hi, hplayed⟩ := heard_of_goes decode hn0 hn hframes h hc hn1 hl hgo hcard (by decide)
  have hr : ringSlots = 64 := rfl
  rw [hr] at hbound ⊢
  exact ⟨L + j + i, by omega, hplayed⟩

theorem heard_of_admits (h : Sane p limit) (ha : p.Admits s ((ringSlots - 20) * limit)) :
    ∃ k, k ≤ (ringSlots + 2) * limit ∧
      (p.resume decode s frames k).hasPlayed p.log.count = true := by
  have hc := Since.start decode h.core.sound
  have hn0 : 0 < n := by omega
  by_cases hp : p.playout.controller.primed = true
  · exact heard_of_first_goes decode hn1 hn hl1 hl hframes h (Or.inl hp)
  have hunprimed := Bool.eq_false_of_not_eq_true hp
  by_cases hs : p.log.buffer.started = true
  · obtain ⟨hnewest, hhalf, hdeep⟩ : p.log.buffer.newestSeq - p.log.buffer.nextSeq ≠ 32768 ∧
        s - p.log.buffer.nextSeq ≠ 32768 ∧
        (p.playout.controller.target ≤ p.log.buffer.depth ∨
          diff p.log.buffer.nextSeq s < (ringSlots - 20) * limit) := by
      rcases ha with ha | ha | ha
      · exact absurd ha hp
      · exact absurd hs (by rw [ha]; exact Bool.false_ne_true)
      · exact ha
    rw [Ne, ahead_eq_iff] at hnewest hhalf
    have hahead : p.log.buffer.ahead ≤ 32767 := by
      have := (h.unread hunprimed hs).1
      rw [JitterBuffer.ahead] at this ⊢
      omega
    by_cases hnear : (s - p.log.buffer.nextSeq).toNat ≤ 32767
    · obtain ⟨j, hj, hgo, -⟩ := waiting_phase decode hn0 hn hframes h hc (s := s) (k := 0) hunprimed hs
        hahead (by rw [show s + UInt16.ofNat 0 = s from UInt16.add_zero s]; exact hnear)
      obtain ⟨i, hi, hplayed⟩ := heard_of_goes decode hn0 hn hframes h hc hn1 hl hgo
        (BufferLog.card_backlog_le _ _) le_rfl
      have hr : ringSlots = 64 := rfl
      rw [hr] at hi ⊢
      exact ⟨0 + j + i, by omega, hplayed⟩
    · have hlate : 32768 < (s - p.log.buffer.nextSeq).toNat := by omega
      by_cases hgo : p.Goes
      · refine heard_of_first_goes decode hn1 hn hl1 hl hframes h ?_
        have hseq : s + UInt16.ofNat 0 = s := UInt16.add_zero s
        have hpush := JitterBuffer.push_late hs hlate (frames 0).timestamp (frames 0).payload
        obtain ⟨c1, c2, c3⟩ := arrive_cursors (p := p) s (frames 0).timestamp (frames 0).payload
          (frames 0).jitterUs
        rw [Goes, arrived, hseq, JitterBuffer.depth]
        show _ ∨ (p.arrive s _ _ _).log.buffer.started = true ∧ _
        rw [resume, c1, c2, c3, hpush.started, hpush.nextSeq, hpush.newestSeq]
        exact hgo
      · have hdepth : diff p.log.buffer.nextSeq s < (ringSlots - 20) * limit := by
          rcases hdeep with hd | hd
          · exact absurd (Or.inr ⟨hs, hd⟩) hgo
          · exact hd
        refine heard_of_late decode hn1 hn hl1 hl hframes h hs hahead hgo hlate ?_
        rw [diff_of_late hlate] at hdepth
        have hr : ringSlots = 64 := rfl
        rw [hr] at hdepth ⊢
        push_cast at hdepth
        omega
  · obtain ⟨j, hj, hplayed⟩ := idle_phase decode hn0 hn hframes h hc 0
      ⟨hunprimed, Bool.eq_false_of_not_eq_true hs⟩
    have hr : ringSlots = 64 := rfl
    rw [hr]
    exact ⟨0 + j, by omega, hplayed⟩

end Heard

/-! ## Not heard -/

section Unheard

variable (hn0 : 0 < n) (hn : n ≤ 240) (hframes : Playable decode frames)

include hn0 hn hframes

/-- A waiting playout does not play while the frames are late. -/
theorem unheard_of_late (h : Sane p limit) (hs : p.log.buffer.started = true) (hwait : ¬ p.Goes)
    (hlate : 32768 < (s - p.log.buffer.nextSeq).toNat) {k : Nat}
    (hk : (s - p.log.buffer.nextSeq).toNat + k ≤ 65536) :
    (p.resume decode s frames k).hasPlayed p.log.count = false := by
  obtain ⟨-, -, hplayed, -⟩ := late_phase decode hn0 hn hframes h (Since.start decode h.core.sound) 0 hs
    hwait k fun i hi => by
      show 32768 < (s + UInt16.ofNat (0 + i) - p.log.buffer.nextSeq).toNat
      rw [ahead_add]
      omega
  rw [Nat.zero_add] at hplayed
  exact (hasPlayed_congr hplayed _).trans (not_hasPlayed h.core)

omit hn0 hn hframes

theorem unheard_of_newest_half (h : Sane p limit) (hunprimed : p.playout.controller.primed = false)
    (hs : p.log.buffer.started = true) (hahead : p.log.buffer.ahead = 32768) (k : Nat) :
    (p.resume decode s frames k).hasPlayed p.log.count = false := by
  have hplayed : (p.resume decode s frames (0 + k)).played = p.played :=
    (half_phase decode 0 hunprimed h.core.steady.target_ge hs hahead k).2.2.2
  rw [Nat.zero_add] at hplayed
  exact (hasPlayed_congr hplayed _).trans (not_hasPlayed h.core)

include hn0 hn hframes

/-- A first frame half the ring ahead becomes the newest one and turns the depth negative, or it is not
taken for newer; the ones after it are late. -/
theorem unheard_of_first_half (h : Sane p limit) (hunprimed : p.playout.controller.primed = false)
    (hs : p.log.buffer.started = true) (hahead : p.log.buffer.ahead ≤ 32767)
    (hhalf : (s - p.log.buffer.nextSeq).toNat = 32768) {k : Nat} (hk : k ≤ 32768) :
    (p.resume decode s frames k).hasPlayed p.log.count = false := by
  cases k with
  | zero => exact not_hasPlayed h.core
  | succ k =>
    have hc := Since.start decode h.core.sound
    have hseq : s + UInt16.ofNat 0 = s := UInt16.add_zero s
    obtain ⟨n1, n2, n3⟩ := JitterBuffer.push_near hs hhalf.le (frames 0).timestamp (hframes 0).1
    obtain ⟨c1, c2, c3⟩ := arrive_cursors (p := p) s (frames 0).timestamp (frames 0).payload
      (frames 0).jitterUs
    have hstarted : (arrived decode p s frames 0).log.buffer.started = true := by
      rw [arrived, hseq]
      exact c1.trans n1
    have hnext : (arrived decode p s frames 0).log.buffer.nextSeq = p.log.buffer.nextSeq := by
      rw [arrived, hseq]
      exact c2.trans n2
    have hnewest : (arrived decode p s frames 0).log.buffer.newestSeq =
        if newerThan s p.log.buffer.newestSeq then s else p.log.buffer.newestSeq := by
      rw [arrived, hseq]
      exact c3.trans n3
    have htarget := h.core.steady.target_ge
    have hunprimed' : (arrived decode p s frames 0).playout.controller.primed = false := hunprimed
    have hplayed' : (arrived decode p s frames 0).played = p.played := rfl
    have hnewer : newerThan s p.log.buffer.newestSeq = true ↔ p.log.buffer.ahead ≠ 0 := by
      have hsum := JitterBuffer.toNat_sub_sub p.log.buffer.newestSeq s p.log.buffer.nextSeq
      have hlt := (p.log.buffer.newestSeq - s).toNat_lt
      rw [newerThan_iff_ahead]
      rw [JitterBuffer.ahead] at hahead ⊢
      omega
    have hno : ¬ (arrived decode p s frames 0).Goes →
        p.resume decode s frames 1 = arrived decode p s frames 0 := fun hno => by
      rw [resume_waits decode hno]
    rw [Nat.add_comm k 1]
    by_cases hzero : p.log.buffer.ahead = 0
    · -- The buffer stays one frame deep.
      rw [if_neg (by rw [hnewer]; exact not_not.mpr hzero)] at hnewest
      have hahead' : (arrived decode p s frames 0).log.buffer.ahead = 0 := by
        rw [JitterBuffer.ahead, hnewest, hnext]
        exact hzero
      have hwait : ¬ (arrived decode p s frames 0).Goes := by
        have hdepth := JitterBuffer.depth_of_ahead hstarted (by omega)
        rw [hahead'] at hdepth
        rintro (hp | ⟨-, hle⟩)
        · rw [hunprimed'] at hp
          cases hp
        · have htarget' : 2 ≤ (arrived decode p s frames 0).playout.controller.target := htarget
          omega
      have hone := hno hwait
      obtain ⟨-, -, hplayed, -⟩ := late_phase decode hn0 hn hframes h hc (s := s) 1
        (by rw [hone]; exact hstarted) (by rw [hone]; exact hwait) k fun i hi => by
          rw [hone, hnext, ahead_add]
          omega
      exact (hasPlayed_congr (hplayed.trans (by rw [hone, hplayed'])) _).trans (not_hasPlayed h.core)
    · rw [if_pos (hnewer.mpr hzero)] at hnewest
      have hahead' : (arrived decode p s frames 0).log.buffer.ahead = 32768 := by
        rw [JitterBuffer.ahead, hnewest, hnext, hhalf]
      have hwait : ¬ (arrived decode p s frames 0).Goes := by
        have hdepth := JitterBuffer.depth_of_half hstarted hahead'
        rintro (hp | ⟨-, hle⟩)
        · rw [hunprimed'] at hp
          cases hp
        · have htarget' : 2 ≤ (arrived decode p s frames 0).playout.controller.target := htarget
          omega
      have hone := hno hwait
      have hplayed : (p.resume decode s frames (1 + k)).played = (p.resume decode s frames 1).played :=
        (half_phase decode 1 (by rw [hone]; exact hunprimed') (by rw [hone]; exact htarget)
          (by rw [hone]; exact hstarted) (by rw [hone]; exact hahead') k).2.2.2
      exact (hasPlayed_congr (hplayed.trans (by rw [hone, hplayed'])) _).trans (not_hasPlayed h.core)

theorem unheard_of_not_admits (h : Sane p limit) (hl : limit ≤ 200)
    (ha : ¬ p.Admits s ((ringSlots + 2) * limit)) {k : Nat} (hk : k ≤ (ringSlots + 2) * limit) :
    (p.resume decode s frames k).hasPlayed p.log.count = false := by
  have hr : ringSlots = 64 := rfl
  rw [Admits, not_or, not_or, hr] at ha
  rw [hr] at hk
  obtain ⟨hp, hs, hno⟩ := ha
  have hunprimed := Bool.eq_false_of_not_eq_true hp
  have hstarted := Bool.eq_true_of_not_eq_false hs
  have hle := (h.unread hunprimed hstarted).1
  by_cases hnewest : p.log.buffer.ahead = 32768
  · exact unheard_of_newest_half decode h hunprimed hstarted hnewest k
  have hahead : p.log.buffer.ahead ≤ 32767 := by omega
  by_cases hhalf : (s - p.log.buffer.nextSeq).toNat = 32768
  · exact unheard_of_first_half decode hn0 hn hframes h hunprimed hstarted hahead hhalf (by omega)
  have hlow : ¬ (p.playout.controller.target ≤ p.log.buffer.depth ∨
      diff p.log.buffer.nextSeq s < ((64 : Nat) + 2) * limit) := fun hc =>
    hno ⟨fun he => hnewest ((ahead_eq_iff _ _).mp he), fun he => hhalf ((ahead_eq_iff _ _).mp he), hc⟩
  rw [not_or] at hlow
  have hwait : ¬ p.Goes := by
    rintro (hg | ⟨-, hg⟩)
    · exact hp hg
    · exact hlow.1 hg
  have hlate : 32768 < (s - p.log.buffer.nextSeq).toNat := by
    by_contra hnear
    have hdiff : diff p.log.buffer.nextSeq s ≤ 0 := diff_of_near (by omega)
    have hl0 : (0 : Int) < limit := by exact_mod_cast Nat.zero_lt_of_lt h.core.steady.misses
    push_cast at hlow
    omega
  have hdiff := hlow.2
  rw [diff_of_late hlate] at hdiff
  push_cast at hdiff
  exact unheard_of_late decode hn0 hn hframes h hstarted hwait hlate (by omega)

end Unheard

/-- A stream that starts again is heard within the time, in every state that admits it; in no state that
does not admit even the latest one. -/
theorem restart_recovers (hn1 : 120 ≤ n) (hn : n ≤ 240) (decoder : σ) (driftCorrection : Bool)
    (es : List (PlaybackEvent n)) (s : UInt16) (frames : Nat → StreamFrame n)
    (hframes : Playable decode frames) :
    let p := (new decoder 48000 none driftCorrection : Playback n σ).run decode es
    let recovers := ∃ k, k ≤ p.recoveryTicks ∧
      (p.resume decode s frames k).hasPlayed p.log.count = true
    (p.Admits s ((ringSlots - 20) * p.playout.controller.resetAfterMisses) → recovers) ∧
      (recovers → p.Admits s p.recoveryTicks) := by
  intro p recovers
  obtain ⟨hl1, hl⟩ := PlayoutController.new_resetAfterMisses hn1 hn
  have hn0 : 0 < n := by omega
  have hsane : Sane p (PlayoutController.new n 48000).resetAfterMisses :=
    (Sane.new decoder driftCorrection (by omega)).run decode hn0 hn es
  have hlimit : p.playout.controller.resetAfterMisses =
      (PlayoutController.new n 48000).resetAfterMisses := hsane.core.steady.resetAfterMisses
  have hticks : p.recoveryTicks =
      (ringSlots + 2) * (PlayoutController.new n 48000).resetAfterMisses := by
    rw [recoveryTicks, hlimit]
  refine ⟨fun ha => ?_, fun ⟨k, hk, hplayed⟩ => ?_⟩
  · rw [hlimit] at ha
    obtain ⟨k, hk, hplayed⟩ := heard_of_admits decode hn1 hn hl1 hl hframes hsane ha
    exact ⟨k, hk.trans_eq hticks.symm, hplayed⟩
  · by_contra hno
    rw [hticks] at hk hno
    push_cast at hno
    rw [unheard_of_not_admits decode hn0 hn hframes hsane hl hno hk] at hplayed
    cases hplayed

/-! ## PCM streams -/

/-- Every frame of the right length can be played. -/
theorem playable_pcmS16 (hn : n ≤ 240) (h : ∀ k, (frames k).payload.length = n * 2) :
    Playable decodePcmS16 frames := by
  intro k
  have hlen := h k
  have hmax : maxFrameBytes = 1024 := rfl
  refine ⟨by omega, fun state buf => ?_⟩
  rw [decodePcmS16, if_neg (not_not.mpr hlen)]

/-- Silent frames of 120 samples. -/
def silence (_ : Nat) : StreamFrame 120 :=
  { timestamp := 0, payload := List.replicate 240 0, jitterUs := 0, out := fun _ => 0 }

theorem playable_silence : Playable decodePcmS16 silence :=
  playable_pcmS16 (by decide) fun _ => List.length_replicate

/-- Two frames have arrived, and both have been read. -/
def playsFrom (seq : UInt16) : Playback 120 Unit :=
  (new () 48000 none true).run decodePcmS16
    [.arrive seq 0 (List.replicate 240 0) 0, .arrive (seq + 1) 0 (List.replicate 240 0) 0,
      .tick fun _ => 0]

/-- The stream starts again far behind. -/
theorem restart_recovers_behind : diff (playsFrom 40000).log.buffer.nextSeq 10000 = 30002 ∧
    ∃ k, k ≤ (playsFrom 40000).recoveryTicks ∧
      ((playsFrom 40000).resume decodePcmS16 10000 silence k).hasPlayed (playsFrom 40000).log.count =
        true := by
  have hprimed : (playsFrom 40000).playout.controller.primed = true := by decide +kernel
  have h := restart_recovers decodePcmS16 (by decide) (by decide) () true
    [.arrive 40000 0 (List.replicate 240 0) 0, .arrive (40000 + 1) 0 (List.replicate 240 0) 0,
      .tick fun _ => 0]
    10000 silence playable_silence
  rw [← playsFrom] at h
  exact ⟨by decide +kernel, h.1 (Or.inl hprimed)⟩

/-- One frame has arrived and the playout waits for another. -/
def waitsAt (seq : UInt16) : Playback 120 Unit :=
  (new () 48000 none true).run decodePcmS16
    [.arrive seq 0 (List.replicate 240 0) 0, .tick fun _ => 0]

/-- The stream starts again far behind the one frame that has arrived. -/
theorem restart_unheard : Playable decodePcmS16 silence ∧
    ¬ ∃ k, k ≤ (waitsAt 40000).recoveryTicks ∧
      ((waitsAt 40000).resume decodePcmS16 10000 silence k).hasPlayed (waitsAt 40000).log.count =
        true := by
  refine ⟨playable_silence, fun ⟨k, hk, hplayed⟩ => ?_⟩
  obtain ⟨hl1, hl⟩ := PlayoutController.new_resetAfterMisses (n := 120) (by decide) (by decide)
  have hsane : Sane (waitsAt 40000) (PlayoutController.new 120 48000).resetAfterMisses :=
    (Sane.new () true (by omega)).run decodePcmS16 (by decide) (by decide) _
  rw [recoveryTicks, hsane.core.steady.resetAfterMisses] at hk
  have hk' : k ≤ 66 * 200 := hk.trans (Nat.mul_le_mul_left 66 hl)
  have hlate : (10000 - (waitsAt 40000).log.buffer.nextSeq).toNat = 35536 := by decide +kernel
  have hwait : ¬ (waitsAt 40000).Goes := by
    rintro (hp | ⟨-, hp⟩)
    · exact absurd hp (by decide +kernel)
    · exact absurd hp (by decide +kernel)
  rw [unheard_of_late decodePcmS16 (by decide) (by decide) playable_silence hsane (by decide +kernel)
    hwait (by omega) (by omega)] at hplayed
  cases hplayed

end Playback

end OnlineJam
