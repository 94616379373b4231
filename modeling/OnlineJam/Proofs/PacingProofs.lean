import OnlineJam.Core.Net
import Mathlib.Data.Rat.Cast.Order
import Mathlib.Tactic.Linarith

/-!
# Proofs: the jitter estimate of a perfectly paced stream

Within one turn of the sender's 32-bit clock the transit time of a paced stream does not change. The
clock is converted to microseconds before it is subtracted, so the transit jumps when it wraps.
-/

namespace OnlineJam

/-- A stream whose packets arrive exactly one frame duration apart. -/
structure PacedStream where
  /-- The sample clock of packet 0. -/
  start : Nat
  frame : Nat
  /-- When packet 0 arrives, if it does. -/
  arrivalUs : Nat
  /-- Which packets are not lost on the way. -/
  arrives : Nat → Bool
  header : Nat → Header
  audio : Nat → AudioPacket

namespace PacedStream

/-- The clock of packet `i` before it is cut to 32 bits. -/
def clock (p : PacedStream) (i : Nat) : Nat := p.start + i * p.frame

/-- How often the clock has wrapped around. -/
def wraps (p : PacedStream) (i : Nat) : Nat := p.clock i / 2 ^ 32

def packet (p : PacedStream) (i : Nat) : AudioPacket :=
  { p.audio i with timestamp := UInt32.ofNat (p.clock i) }

/-- `i` frame durations after packet 0. -/
def arrival (p : PacedStream) (cfg : RxConfig) (i : Nat) : Nat :=
  p.arrivalUs + i * p.frame * 1000000 / cfg.sampleRate.toNat

/-- The receive routine takes in packet `i`. -/
def receive (p : PacedStream) (cfg : RxConfig) (st : ArrivalJitter × StreamShared) (i : Nat) :
    ArrivalJitter × StreamShared :=
  receiveAudio cfg (p.arrival cfg i) st.1 st.2 (p.header i) (p.packet i)

/-- Those of the first `n` packets that arrive. -/
def received (p : PacedStream) (n : Nat) : List Nat := (List.range n).filter p.arrives

/-- A fresh estimator and its stream after the first `n` packets. -/
def run (p : PacedStream) (cfg : RxConfig) (stream : StreamShared) (n : Nat) :
    ArrivalJitter × StreamShared :=
  (p.received n).foldl (p.receive cfg) (ArrivalJitter.new, stream)

end PacedStream

/-! ## Transit times -/

/-- Two clocks in whole sixths are as far apart in microseconds as they are in samples exactly when
neither has wrapped more often than the other. -/
theorem mediaUs_sub_iff {cfg : RxConfig} (hrate : cfg.sampleRate = 48000) {s t : Nat} (hs : 6 ∣ s)
    (ht : 6 ∣ t) : (mediaUs cfg (UInt32.ofNat s) : Int) - mediaUs cfg (UInt32.ofNat t) =
      125 * (s / 6 : Nat) - 125 * (t / 6 : Nat) ↔ s / 2 ^ 32 = t / 2 ^ 32 := by
  have hus : ∀ u : Nat, mediaUs cfg (UInt32.ofNat u) = u % 4294967296 * 1000000 / 48000 := by
    intro u
    rw [mediaUs, hrate, UInt32.toNat_ofNat']
    rfl
  rw [hus, hus]
  omega

/-- An estimate of zero stays zero exactly when the transit time does not change. -/
theorem ArrivalJitter.onArrival_eq_zero {a : ArrivalJitter} (hj : a.jUs = 0) {pa pm : Nat}
    (hp : a.prev = some (pa, pm)) (arrivalUs mediaUs : Nat) :
    (a.onArrival arrivalUs mediaUs).1 = 0 ↔ (mediaUs : Int) - pm = arrivalUs - pa := by
  have hd : (a.onArrival arrivalUs mediaUs).1 =
      (((arrivalUs - mediaUs : Int) - (pa - pm)).natAbs : ℚ) / 16 := by
    rw [onArrival, hp, hj]
    ring
  rw [hd, div_eq_zero_iff, or_iff_left (by norm_num), Nat.cast_eq_zero, Int.natAbs_eq_zero]
  omega

/-! ## The receive routine -/

theorem JitterBuffer.store_jitterUs (jb : JitterBuffer) (seq : UInt16) (timestamp : UInt32)
    (payload : Bytes) : (jb.store seq timestamp payload).2.stats.jitterUs = jb.stats.jitterUs := by
  unfold store
  dsimp only
  split <;> rfl

theorem JitterBuffer.push_jitterUs (jb : JitterBuffer) (seq : UInt16) (timestamp : UInt32)
    (payload : Bytes) : (jb.push seq timestamp payload).2.stats.jitterUs = jb.stats.jitterUs := by
  unfold push
  split_ifs <;> simp only [store_jitterUs]

/-- The estimator moves on, and its estimate is published. -/
theorem receiveAudio_jitter (cfg : RxConfig) (nowUs : Nat) (jitter : ArrivalJitter)
    (stream : StreamShared) (header : Header) (audio : AudioPacket) :
    (receiveAudio cfg nowUs jitter stream header audio).1 =
      (jitter.onArrival nowUs (mediaUs cfg audio.timestamp)).2 ∧
    (receiveAudio cfg nowUs jitter stream header audio).2.jb.stats.jitterUs =
      (jitter.onArrival nowUs (mediaUs cfg audio.timestamp)).1 := by
  refine ⟨rfl, ?_⟩
  unfold receiveAudio
  dsimp only
  split <;> simp only [JitterBuffer.push_jitterUs] <;> rfl

namespace PacedStream

variable {p : PacedStream} {cfg : RxConfig} {stream : StreamShared}

theorem received_succ (p : PacedStream) (n : Nat) :
    p.received (n + 1) = p.received n ++ if p.arrives n then [n] else [] := by
  rw [received, List.range_succ, List.filter_append, ← received]
  by_cases hn : p.arrives n <;> simp [hn]

theorem mem_received {n i : Nat} : i ∈ p.received n ↔ i < n ∧ p.arrives i = true := by
  rw [received, List.mem_filter, List.mem_range]

theorem run_succ_lost {n : Nat} (hn : p.arrives n = false) :
    p.run cfg stream (n + 1) = p.run cfg stream n := by
  rw [run, received_succ, hn, if_neg Bool.false_ne_true, List.append_nil, ← run]

theorem run_succ {n : Nat} (hn : p.arrives n = true) :
    p.run cfg stream (n + 1) = p.receive cfg (p.run cfg stream n) n := by
  rw [run, received_succ, hn, if_pos rfl, List.foldl_append, ← run]
  rfl

/-- What the estimator remembers is the last packet that arrived. -/
theorem run_prev (p : PacedStream) (cfg : RxConfig) (stream : StreamShared) (n : Nat) :
    (p.run cfg stream n).1.prev = (p.received n).getLast?.map fun l =>
      (p.arrival cfg l, mediaUs cfg (p.packet l).timestamp) := by
  induction n with
  | zero => rfl
  | succ n ih =>
    by_cases hn : p.arrives n = true
    · rw [run_succ hn, receive, (receiveAudio_jitter ..).1, received_succ, if_pos hn,
        List.getLast?_concat]
      rfl
    · rw [run_succ_lost (Bool.eq_false_of_not_eq_true hn), ih, received_succ, if_neg hn,
        List.append_nil]

/-- What is published is the estimate of the estimator, once a packet has arrived. -/
theorem run_published (p : PacedStream) (cfg : RxConfig) (stream : StreamShared) {n : Nat}
    (hn : p.received n ≠ []) :
    (p.run cfg stream n).2.jb.stats.jitterUs = (p.run cfg stream n).1.jUs := by
  induction n with
  | zero => exact absurd rfl hn
  | succ n ih =>
    by_cases hr : p.arrives n = true
    · rw [run_succ hr, receive, (receiveAudio_jitter ..).1, (receiveAudio_jitter ..).2]
      rfl
    · rw [received_succ, if_neg hr, List.append_nil] at hn
      rw [run_succ_lost (Bool.eq_false_of_not_eq_true hr)]
      exact ih hn

/-- The next packet keeps an estimate of zero exactly when the clock has not wrapped since the last one
that arrived. -/
theorem receive_eq_zero (hrate : cfg.sampleRate = 48000) (hframe : 6 ∣ p.frame)
    (hstart : p.frame ∣ p.start) {n l : Nat} (hl : (p.received n).getLast? = some l)
    (hn : p.arrives n = true) (hz : (p.run cfg stream n).1.jUs = 0) :
    (p.run cfg stream (n + 1)).1.jUs = 0 ↔ p.wraps n = p.wraps l := by
  have hprev := p.run_prev cfg stream n
  rw [hl, Option.map_some] at hprev
  have hsixth : ∀ i, 6 ∣ i * p.frame ∧ 6 ∣ p.clock i := fun i =>
    ⟨hframe.mul_left i, Nat.dvd_add (hframe.trans hstart) (hframe.mul_left i)⟩
  have hes : (p.run cfg stream (n + 1)).1.jUs =
      ((p.run cfg stream n).1.onArrival (p.arrival cfg n) (mediaUs cfg (p.packet n).timestamp)).1 := by
    rw [run_succ hn]
    rfl
  rw [hes, ArrivalJitter.onArrival_eq_zero hz hprev, wraps, wraps,
    ← mediaUs_sub_iff hrate (hsixth n).2 (hsixth l).2]
  -- In arrivals and in samples the two packets are the same number of frames apart.
  have hgap : ((p.arrival cfg n : Int) - p.arrival cfg l) =
      125 * (p.clock n / 6 : Nat) - 125 * (p.clock l / 6 : Nat) := by
    obtain ⟨a, ha⟩ := (hsixth n).1
    obtain ⟨b, hb⟩ := (hsixth l).1
    obtain ⟨c, hc⟩ := hframe.trans hstart
    rw [arrival, arrival, clock, clock, hrate, ha, hb, hc, show (48000 : UInt32).toNat = 48000 from rfl]
    omega
  rw [hgap]
  rfl

/-! ## Turns of the clock -/

/-- Those of the first `n` packets that arrive lie within one turn of the clock. -/
def SameTurn (p : PacedStream) (n : Nat) : Prop :=
  ∀ i < n, ∀ j < n, p.arrives i = true → p.arrives j = true → p.wraps i = p.wraps j

theorem SameTurn.mono {m n : Nat} (h : p.SameTurn n) (hm : m ≤ n) : p.SameTurn m :=
  fun i hi j hj => h i (by omega) j (by omega)

theorem sameTurn_succ_lost {n : Nat} (hn : p.arrives n = false) :
    p.SameTurn (n + 1) ↔ p.SameTurn n := by
  refine ⟨fun h => h.mono (Nat.le_succ n), fun h i hi j hj hai haj => ?_⟩
  have hlt : ∀ k < n + 1, p.arrives k = true → k < n := by
    intro k hk ha
    have hne : k ≠ n := by
      rintro rfl
      rw [hn] at ha
      cases ha
    omega
  exact h i (hlt i hi hai) j (hlt j hj haj) hai haj

theorem sameTurn_succ_first {n : Nat} (hl : p.received n = []) : p.SameTurn (n + 1) := by
  have honly : ∀ k < n + 1, p.arrives k = true → k = n := by
    intro k hk ha
    by_contra hne
    have hmem : k ∈ p.received n := mem_received.mpr ⟨by omega, ha⟩
    rw [hl] at hmem
    exact List.not_mem_nil hmem
  intro i hi j hj hai haj
  rw [honly i hi hai, honly j hj haj]

theorem sameTurn_succ {n l : Nat} (hn : p.arrives n = true) (hl : (p.received n).getLast? = some l) :
    p.SameTurn (n + 1) ↔ p.SameTurn n ∧ p.wraps n = p.wraps l := by
  obtain ⟨hln, hla⟩ := mem_received.mp (List.mem_of_getLast? hl)
  refine ⟨fun h => ⟨h.mono (Nat.le_succ n), h n (by omega) l (by omega) hn hla⟩, ?_⟩
  rintro ⟨h, hnl⟩
  have hlast : ∀ i < n + 1, p.arrives i = true → p.wraps i = p.wraps l := by
    intro i hi ha
    rcases Nat.lt_succ_iff_lt_or_eq.mp hi with hi | rfl
    · exact h i hi l hln ha hla
    · exact hnl
  intro i hi j hj hai haj
  rw [hlast i hi hai, hlast j hj haj]

/-- The estimator has never left zero exactly when the clock has not wrapped. By induction on the
packets sent: one that is lost changes neither, the first to arrive has nothing to be compared with. -/
theorem run_eq_zero_iff (hrate : cfg.sampleRate = 48000) (hframe : 6 ∣ p.frame)
    (hstart : p.frame ∣ p.start) (n : Nat) :
    (∀ m ≤ n, (p.run cfg stream m).1.jUs = 0) ↔ p.SameTurn n := by
  induction n with
  | zero =>
    refine ⟨fun _ i hi => absurd hi (Nat.not_lt_zero i), fun _ m hm => ?_⟩
    rw [Nat.le_zero.mp hm]
    rfl
  | succ n ih =>
    have hsplit : (∀ m ≤ n + 1, (p.run cfg stream m).1.jUs = 0) ↔
        (∀ m ≤ n, (p.run cfg stream m).1.jUs = 0) ∧ (p.run cfg stream (n + 1)).1.jUs = 0 :=
      ⟨fun h => ⟨fun m hm => h m (by omega), h _ le_rfl⟩,
        fun h m hm => (Nat.le_succ_iff.mp hm).elim (h.1 m) fun he => he ▸ h.2⟩
    rw [hsplit]
    by_cases hn : p.arrives n = true
    · cases hl : (p.received n).getLast? with
      | none =>
        have hnil := List.getLast?_eq_none_iff.mp hl
        have hprev := p.run_prev cfg stream n
        have hz : (p.run cfg stream n).1.jUs = 0 := by
          rw [run, hnil]
          rfl
        rw [hl, Option.map_none] at hprev
        refine ⟨fun _ => sameTurn_succ_first hnil, fun h => ⟨ih.mpr (h.mono (Nat.le_succ n)), ?_⟩⟩
        rw [run_succ hn, receive, (receiveAudio_jitter ..).1, ArrivalJitter.onArrival, hprev]
        exact hz
      | some l =>
        rw [sameTurn_succ hn hl, ← ih]
        exact and_congr_right fun h => receive_eq_zero hrate hframe hstart hl hn (h n le_rfl)
    · have hlost := Bool.eq_false_of_not_eq_true hn
      rw [sameTurn_succ_lost hlost, ← ih, run_succ_lost hlost]
      exact and_iff_left_of_imp fun h => h n le_rfl

end PacedStream

/-! ## Main result -/

/-- At 48 kHz the estimate of a paced stream is zero after every packet exactly when all packets that
arrive lie within one turn of the 32-bit sample clock. -/
theorem paced_estimate_iff (p : PacedStream) (cfg : RxConfig) (stream : StreamShared)
    (hrate : cfg.sampleRate = 48000) (hframe : 6 ∣ p.frame) (hstart : p.frame ∣ p.start) (n : Nat) :
    (∀ m ≤ n, p.received m ≠ [] → (p.run cfg stream m).1.jUs = 0 ∧
      (p.run cfg stream m).2.jb.stats.jitterUs = 0) ↔
    ∀ i < n, ∀ j < n, p.arrives i = true → p.arrives j = true → p.wraps i = p.wraps j := by
  have hzero : (∀ m ≤ n, (p.run cfg stream m).1.jUs = 0) ↔ p.SameTurn n :=
    PacedStream.run_eq_zero_iff hrate hframe hstart n
  rw [← PacedStream.SameTurn, ← hzero]
  constructor
  · intro h m hm
    by_cases hr : p.received m = []
    · rw [PacedStream.run, hr]
      rfl
    · exact (h m hm hr).1
  · intro h m hm hr
    rw [p.run_published cfg stream hr]
    exact ⟨h m hm, h m hm⟩

/-- Silence in frames of 2.5 ms, with every third packet lost. -/
def silence (start : Nat) : PacedStream :=
  { start := start, frame := 120, arrivalUs := 7, arrives := fun i => i % 3 ≠ 2
    header := fun i => ⟨.audio, 7, 1, UInt16.ofNat i⟩
    audio := fun _ => { timestamp := 0, codec := .pcmS16, payload := List.replicate 240 0, redundant := none } }

def silenceConfig : RxConfig := { frameSamples := 120, sampleRate := 48000 }

/-- After an hour of it from clock zero. -/
theorem paced_estimate_hour : ((silence 0).run silenceConfig StreamShared.new 1440000).1.jUs = 0 ∧
    ((silence 0).run silenceConfig StreamShared.new 1440000).2.jb.stats.jitterUs = 0 := by
  have hfirst : 0 ∈ (silence 0).received 1440000 := PacedStream.mem_received.mpr ⟨by omega, rfl⟩
  refine (paced_estimate_iff (silence 0) silenceConfig StreamShared.new rfl (by decide) (by decide)
    1440000).mpr ?_ 1440000 le_rfl (List.ne_nil_of_mem hfirst)
  intro i hi j hj _ _
  simp only [PacedStream.wraps, PacedStream.clock, silence]
  omega

/-- Two packets on either side of the wrap, one frame apart: the estimate is over an hour. -/
theorem paced_estimate_jumps :
    ((silence 4294967280).run silenceConfig StreamShared.new 2).2.jb.stats.jitterUs = 89478485334 / 16 ∧
    ¬ ∀ (p : PacedStream) (cfg : RxConfig) (stream : StreamShared), cfg.sampleRate = 48000 →
      6 ∣ p.frame → p.frame ∣ p.start → ∀ n, p.received n ≠ [] →
        (p.run cfg stream n).1.jUs = 0 ∧ (p.run cfg stream n).2.jb.stats.jitterUs = 0 := by
  have hjumps : ((silence 4294967280).run silenceConfig StreamShared.new 2).2.jb.stats.jitterUs =
      89478485334 / 16 := by decide +kernel
  refine ⟨hjumps, fun hall => ?_⟩
  have hz := (hall (silence 4294967280) silenceConfig StreamShared.new rfl (by decide) (by decide) 2
    (by decide)).2
  rw [hjumps] at hz
  norm_num at hz

end OnlineJam
