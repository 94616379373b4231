import OnlineJam.Core.Upstream
import OnlineJam.Proofs.WireProofs
import OnlineJam.Proofs.SeqProofs

/-!
# Proofs: the upstream pipeline

While the client stays joined, frame `i` is emitted with the `i`-th sequence number and sample clock and
carries the encoding of frame `i - 1` as its redundant copy.
-/

namespace OnlineJam

open OnlineJam.Lib

namespace PrevFrame

theorem get_length_le {p : PrevFrame} {red : Bytes} (h : p.get = some red) :
    red.length ≤ maxFrameBytes := by
  rw [get] at h
  split_ifs at h
  rw [← Option.some.inj h, List.length_take, p.buf_length]
  exact Nat.min_le_right _ _

/-- What was stored is what the next packet carries. -/
theorem store_get {p : PrevFrame} {data : Bytes} (h0 : 0 < data.length)
    (hle : data.length ≤ maxFrameBytes) : ∃ q, p.store data = some q ∧ q.get = some data := by
  refine ⟨_, dif_pos hle, ?_⟩
  rw [get, if_pos h0]
  exact congrArg some List.take_left

end PrevFrame

/-- The buffer is large enough for any two encoded frames. -/
theorem writeAudioDatagram_spec (sessionId senderId seq : UInt16) (timestamp : UInt32)
    (params : EngineParams) (payload : Bytes) (redundant : Option Bytes)
    (hp : payload.length ≤ 960) (hr : ∀ red, redundant = some red → red.length ≤ maxFrameBytes) :
    ∃ d, writeAudioDatagram sessionId senderId seq timestamp params payload redundant = some d ∧
      d.length ≤ maxDatagram ∧ parseDatagram d = some (.ok
        ({ ptype := .audio, sessionId := sessionId, senderId := senderId, seq := seq },
          .audio { timestamp := timestamp, codec := params.codec, payload := payload,
                   redundant := redundant })) := by
  have hlen : AudioPacket.datagramLen ⟨timestamp, params.codec, payload, redundant⟩ ≤ maxDatagram := by
    have hd : maxDatagram = 2048 := rfl
    have hm : maxFrameBytes = 1024 := rfl
    have hh : headerLen = 8 := rfl
    have ha : audioHeaderLen = 8 := rfl
    cases redundant with
    | none => simp only [AudioPacket.datagramLen]; omega
    | some red =>
      have := hr red rfl
      simp only [AudioPacket.datagramLen]
      omega
  have h16 : maxFrameBytes < 2 ^ 16 := by decide
  obtain ⟨out', hw, hl, hparse⟩ := Payload.write_parseDatagram
    (h := ⟨.audio, sessionId, senderId, seq⟩)
    (p := .audio ⟨timestamp, params.codec, payload, redundant⟩) (List.replicate maxDatagram 0) rfl
    ⟨Nat.lt_of_le_of_lt hp (by decide), fun red h => Nat.lt_of_le_of_lt (hr red h) h16⟩
    (by rw [List.length_replicate]; exact AudioPacket.encode_length _ ▸ hlen)
  refine ⟨_, ?_, ?_, hparse⟩
  · rw [Payload.write] at hw
    simp only [writeAudioDatagram, hw, Option.bind_eq_bind, Option.bind_some, Option.pure_def]
  · rw [List.length_take, hl, List.length_replicate]
    exact Nat.min_le_right _ _

/-- One frame of a joined client whose encoder succeeds. -/
theorem ClientPipeline.processFrame_spec {p : ClientPipeline} {shared : ClientShared} {enc : Bytes}
    (hj : shared.joined = true) (hred : p.params.redundancy = true) (h0 : 1 ≤ enc.length)
    (hle : enc.length ≤ 960) :
    ∃ d q, p.processFrame shared (some enc) = some (some d, q) ∧ d.length ≤ maxDatagram ∧
      parseDatagram d = some (.ok
        ({ ptype := .audio, sessionId := shared.sessionId, senderId := shared.senderId,
           seq := p.seq.val },
          .audio { timestamp := p.sampleClock, codec := p.params.codec, payload := enc,
                   redundant := p.prevEnc.get })) ∧
      q.params = p.params ∧ q.seq.val = p.seq.val + 1 ∧ q.prevEnc.get = some enc ∧
      q.sampleClock = p.sampleClock + UInt32.ofNat p.params.frameSamples := by
  obtain ⟨d, hd, hlen, hparse⟩ := writeAudioDatagram_spec shared.sessionId shared.senderId p.seq.val
    p.sampleClock p.params enc p.prevEnc.get hle
    fun red h => PrevFrame.get_length_le h
  obtain ⟨q, hq, hget⟩ := PrevFrame.store_get (p := p.prevEnc) h0
    (Nat.le_trans hle (Nat.le_of_ble_eq_true rfl))
  refine ⟨d, { p with seq := ⟨p.seq.val + 1⟩, prevEnc := q,
                      sampleClock := p.sampleClock + UInt32.ofNat p.params.frameSamples },
    ?_, hlen, hparse, rfl, rfl, hget, rfl⟩
  have hsend : p.sendFrame shared (some enc) =
      some (some d, { p with seq := ⟨p.seq.val + 1⟩, prevEnc := q }) := by
    simp only [sendFrame, hj, hred, if_true, SeqGen.next, hd, hq, Option.bind_eq_bind,
      Option.bind_some, Option.pure_def]
  rw [processFrame, hsend]
  rfl

/-! ## The whole stream -/

section Stream

variable {p : ClientPipeline} {shared : ClientShared} {enc : Nat → Bytes}

/-- The redundant copy that travels with frame `i`. -/
def redundantAt (p : ClientPipeline) (enc : Nat → Bytes) : Nat → Option Bytes
  | 0 => p.prevEnc.get
  | i + 1 => some (enc i)

/-- The sample clock of frame `i`. -/
def clockAt (p : ClientPipeline) (i : Nat) : UInt32 :=
  p.sampleClock + UInt32.ofNat (i * p.params.frameSamples)

/-- The position of frame `i` in the stream. -/
def posAt (p : ClientPipeline) (i : Nat) : Int := p.seq.val.toNat + i

theorem clockAt_succ (p : ClientPipeline) (i : Nat) :
    clockAt p (i + 1) = clockAt p i + UInt32.ofNat p.params.frameSamples := by
  rw [clockAt, clockAt, Nat.succ_mul, UInt32.ofNat_add, UInt32.add_assoc]

theorem pipelineAt_spec (hj : shared.joined = true) (hred : p.params.redundancy = true)
    (henc : ∀ i, 1 ≤ (enc i).length ∧ (enc i).length ≤ 960) (i : Nat) :
    ∃ q, pipelineAt p shared enc i = some q ∧ q.params = p.params ∧ q.seq.val = lowSeq (posAt p i) ∧
      q.prevEnc.get = redundantAt p enc i ∧ q.sampleClock = clockAt p i := by
  induction i with
  | zero =>
    refine ⟨p, rfl, rfl, ?_, rfl, ?_⟩
    · rw [posAt, Int.natCast_zero, Int.add_zero, lowSeq_natCast]
    · simp [clockAt]
  | succ i ih =>
    obtain ⟨q, hq, hpar, hseq, -, hclk⟩ := ih
    obtain ⟨d, q', hstep, -, -, hpar', hseq', hget', hclk'⟩ :=
      ClientPipeline.processFrame_spec (p := q) hj (hpar ▸ hred) (henc i).1 (henc i).2
    refine ⟨q', ?_, hpar'.trans hpar, ?_, hget', ?_⟩
    · rw [pipelineAt, hq, Option.bind_eq_bind, Option.bind_some, hstep]
      rfl
    · rw [hseq', hseq, ← lowSeq_add_one]
      congr 1
    · rw [hclk', hclk, hpar, clockAt_succ]

/-- The datagram of frame `i`. -/
theorem emittedAt_spec (shared : ClientShared) (hj : shared.joined = true) (hred : p.params.redundancy = true)
    (henc : ∀ i, 1 ≤ (enc i).length ∧ (enc i).length ≤ 960) (i : Nat) :
    ∃ d, emittedAt p shared enc i = some d ∧ d.length ≤ maxDatagram ∧ parseDatagram d = some (.ok
      ({ ptype := .audio, sessionId := shared.sessionId, senderId := shared.senderId,
         seq := lowSeq (posAt p i) },
        .audio { timestamp := clockAt p i, codec := p.params.codec, payload := enc i,
                 redundant := redundantAt p enc i })) := by
  obtain ⟨q, hq, hpar, hseq, hget, hclk⟩ := pipelineAt_spec hj hred henc i
  obtain ⟨d, q', hstep, hlen, hparse, -⟩ :=
    ClientPipeline.processFrame_spec (p := q) hj (hpar ▸ hred) (henc i).1 (henc i).2
  refine ⟨d, ?_, hlen, ?_⟩
  · rw [emittedAt, hq, Option.bind_eq_bind, Option.bind_some, hstep]
    rfl
  · rw [hparse, hseq, hget, hclk, hpar]

end Stream

end OnlineJam
