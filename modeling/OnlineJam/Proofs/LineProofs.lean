import OnlineJam.Proofs.QueueProofs

/-!
# Proofs: a stream is a line

In fixed-depth mode a playout on a buffer that is a queue plays what a line plays, and a pipeline at the
other end keeps the queue supplied. The datagrams in between are numbered in a row, and that is all the
receive threads need.
-/

namespace OnlineJam

variable {n : Nat} {ε σ : Type}

/-! ## Playing -/

/-- A playout in fixed-depth mode that has got as far as a line. -/
structure Plays (depth : Nat) (sp : StreamPlayout n σ) (l : Line n ε σ) : Prop where
  controller : sp.controller.Fixed depth
  primed : sp.controller.primed = l.playing
  insertPending : sp.insertPending = false
  driftEnabled : sp.driftEnabled = false
  decoder : sp.decoder = l.decoder
  decodeBuf : sp.decodeBuf = l.last

theorem PlayoutController.Fixed.reset {c : PlayoutController} {depth : Int} (h : c.Fixed depth) :
    c.reset.Fixed depth := ⟨h.minFrames, h.maxFrames, h.target, h.deadband, rfl⟩

/-- A playout that has not begun may forget its state. -/
theorem Plays.resetStream {depth : Nat} {sp : StreamPlayout n σ} {l : Line n ε σ} (h : Plays depth sp l)
    (hidle : l.playing = false) : Plays depth sp.resetStream l :=
  ⟨h.controller.reset, hidle.symm, rfl, h.driftEnabled, h.decoder, h.decodeBuf⟩

section Playing

variable {codec : AudioCodec n ε σ} {depth : Nat} {l : Line n ε σ} {next : Int} {f : Frame}
  {frames : List Frame}

/-- The playback has a queue in front of it that matches the line. -/
structure Follows (depth : Nat) (p : Playback n σ) (l : Line n ε σ) (next : Int) (frames : List Frame) :
    Prop where
  plays : Plays depth p.playout l
  queued : Queued p.log.buffer next frames
  waiting : l.waiting = frames.map Frame.payload

theorem Line.play_waits (h : l.playing = false) (hlen : l.waiting.length < depth) :
    l.play codec depth = (fun _ => 0, l) := by
  unfold play
  split
  · rw [if_neg]
    rintro (hp | hle)
    · rw [h] at hp
      cases hp
    · omega
  · rfl

theorem Line.play_advances {payload : Bytes} {waiting : List Bytes} (hw : l.waiting = payload :: waiting)
    (h : l.playing = true ∨ depth ≤ l.waiting.length) :
    l.play codec depth = ((l.advance codec payload).last, l.advance codec payload) := by
  unfold play
  split
  · rename_i payload' _ hw'
    obtain rfl : payload' = payload := (List.cons.inj (hw'.symm.trans hw)).1
    rw [if_pos h]
  · rename_i hw'
    rw [hw] at hw'
    cases hw'

theorem Line.deliver_playing (l : Line n ε σ) : l.deliver.playing = l.playing := by
  unfold deliver
  split <;> rfl

/-- The next frame is there and gets decoded. -/
theorem Follows.decodeNext {p : Playback n σ} (h : Follows depth p l next (f :: frames))
    (hdecodes : Playback.Decodable codec.decode f.payload) (hplaying : p.playout.controller.primed = true) :
    (p.decodeNext codec.decode).1 = true ∧
    Follows depth (p.decodeNext codec.decode).2 (l.advance codec f.payload) (next + 1) frames := by
  obtain ⟨hpop, hqueued⟩ := h.queued.pop
  have hok := hdecodes p.playout.decoder p.playout.decodeBuf
  have hnext : p.decodeNext codec.decode = (true,
      { playout := { p.playout with
          decoder := (codec.decode p.playout.decoder (some f.payload) p.playout.decodeBuf).2.2
          decodeBuf := (codec.decode p.playout.decoder (some f.payload) p.playout.decodeBuf).2.1 }
        log := p.log.pop
        played := p.played ++ (p.log.latest p.log.buffer.nextSeq).toList.map Prod.fst }) := by
    rw [Playback.decodeNext, if_neg (by rw [h.plays.insertPending]; exact Bool.false_ne_true),
      Playback.popDecoded, hpop]
    exact if_pos hok
  rw [hnext]
  refine ⟨rfl, ⟨h.plays.controller, hplaying, h.plays.insertPending, h.plays.driftEnabled, ?_, ?_⟩, ?_, ?_⟩
  · rw [Line.advance, ← h.plays.decoder, ← h.plays.decodeBuf]
  · rw [Line.advance, ← h.plays.decoder, ← h.plays.decodeBuf]
  · rw [BufferLog.pop_buffer]
    exact hqueued
  · rw [Line.advance, h.waiting]
    rfl

/-- The depth after a pull is within the deadband. -/
theorem Follows.pullDecoded {p : Playback n σ} (h : Follows depth p l next (f :: frames))
    (hdecodes : Playback.Decodable codec.decode f.payload) (hplaying : p.playout.controller.primed = true)
    (hlo : depth ≤ frames.length + 1) (hhi : frames.length ≤ depth + 1) (hring : frames.length ≤ 64) :
    (p.pullDecoded codec.decode).1 = some true ∧
    Follows depth (p.pullDecoded codec.decode).2 (l.advance codec f.payload) (next + 1) frames := by
  obtain ⟨hhit, hq⟩ := h.decodeNext hdecodes hplaying
  rw [Playback.pullDecoded]
  generalize p.decodeNext codec.decode = r at hhit hq ⊢
  obtain ⟨hit, q⟩ := r
  dsimp only at hhit hq ⊢
  subst hhit
  obtain ⟨hkeep, hfixed, hprimed⟩ := hq.plays.controller.hit q.log.buffer.stats.jitterUs
  have hseen := hq.queued.depth hring
  rw [if_neg (by rw [hkeep]; exact Bool.false_ne_true),
    hfixed.observeDepth (by rw [hseen]; omega) (by rw [hseen]; omega)]
  exact ⟨rfl, ⟨hfixed, hprimed.trans hq.plays.primed, hq.plays.insertPending, hq.plays.driftEnabled,
    hq.plays.decoder, hq.plays.decodeBuf⟩, hq.queued, hq.waiting⟩

/-- A tick plays the next frame and corrects nothing. -/
theorem Follows.tickStepped {p : Playback n σ} (h : Follows depth p l next (f :: frames))
    (hdecodes : Playback.Decodable codec.decode f.payload) (hplaying : p.playout.controller.primed = true)
    (hlo : depth ≤ frames.length + 1) (hhi : frames.length ≤ depth + 1) (hring : frames.length ≤ 64) :
    (p.tickStepped codec.decode).1.2 = (l.advance codec f.payload).last ∧
    Follows depth (p.tickStepped codec.decode).2 (l.advance codec f.payload) (next + 1) frames := by
  obtain ⟨hhit, hq⟩ := h.pullDecoded hdecodes hplaying hlo hhi hring
  rw [Playback.tickStepped]
  generalize p.pullDecoded codec.decode = r at hhit hq ⊢
  obtain ⟨hit, q⟩ := r
  dsimp only at hhit hq ⊢
  subst hhit
  have hadjust : q.applyStepAdjustment q.playout.decodeBuf = q := by
    rw [Playback.applyStepAdjustment, hq.plays.controller.takeAdjustment]
    split <;> rfl
  dsimp only
  rw [hadjust]
  exact ⟨hq.plays.decodeBuf, hq⟩

/-- Priming leaves everything else alone. -/
theorem Follows.primed {p : Playback n σ} (h : Follows depth p l next frames) :
    Follows depth p.primed { l with playing := true } next frames ∧
      p.primed.playout.controller.primed = true := by
  have hfixed := h.plays.controller
  rw [Playback.primed]
  split
  · rename_i hprimed
    exact ⟨⟨⟨hfixed, hprimed, h.plays.insertPending, h.plays.driftEnabled, h.plays.decoder,
      h.plays.decodeBuf⟩, h.queued, h.waiting⟩, hprimed⟩
  · exact ⟨⟨⟨⟨hfixed.minFrames, hfixed.maxFrames, hfixed.target, hfixed.deadband, hfixed.pending⟩, rfl,
      h.plays.insertPending, h.plays.driftEnabled, h.plays.decoder, h.plays.decodeBuf⟩, h.queued,
      h.waiting⟩, rfl⟩

/-- A tick plays what the line plays. -/
theorem Follows.tick {p : Playback n σ} (h : Follows depth p l next frames) (hpos : 1 ≤ depth)
    (hready : l.Ready depth) (hroom : frames.length ≤ min (depth + 2) ringSlots)
    (hdecodes : ∀ payload ∈ l.waiting, Playback.Decodable codec.decode payload) (out : Samples n) :
    (p.tick codec.decode out).1.2 = (l.play codec depth).1 ∧
    ∃ next' frames', Follows depth (p.tick codec.decode out).2 (l.play codec depth).2 next' frames' ∧
      next' + frames'.length = next + frames.length ∧ frames'.length ≤ frames.length := by
  have hlen : l.waiting.length = frames.length := by rw [h.waiting, List.length_map]
  obtain ⟨hhi, hring⟩ := le_min_iff.mp hroom
  change frames.length ≤ 64 at hring
  have hseen := h.queued.depth hring
  by_cases hgoes : l.playing = true ∨ depth ≤ l.waiting.length
  · -- The line plays, and there is a frame to play.
    have hlo : depth ≤ frames.length := by
      rcases hgoes with hplaying | hle
      · exact hlen ▸ hready hplaying
      · exact hlen ▸ hle
    cases frames with
    | nil => exact absurd (hpos.trans hlo) (by decide)
    | cons f frames =>
      have hgo : p.Goes := by
        refine Or.inr ⟨h.queued.started (List.cons_ne_nil _ _), ?_⟩
        rw [h.plays.controller.target, hseen]
        exact Int.ofNat_le.mpr hlo
      obtain ⟨hprimed, hplaying⟩ := h.primed
      rw [List.length_cons] at hlo hhi hring
      have hnext : Playback.Decodable codec.decode f.payload := by
        apply hdecodes
        rw [h.waiting]
        exact List.mem_cons_self
      obtain ⟨hout, hfollows⟩ := hprimed.tickStepped hnext hplaying hlo (by omega) (by omega)
      rw [Playback.tick_goes codec.decode hgo, h.plays.driftEnabled, if_neg Bool.false_ne_true,
        Line.play_advances (h.waiting.trans (List.map_cons ..)) hgoes]
      refine ⟨hout, next + 1, frames, hfollows, ?_, Nat.le_succ _⟩
      rw [List.length_cons, Nat.cast_add, Nat.cast_one]
      omega
  · -- Both wait for the depth.
    rw [not_or, Bool.not_eq_true, not_le] at hgoes
    have hno : ¬ p.Goes := by
      rintro (hprimed | ⟨-, hle⟩)
      · rw [h.plays.primed, hgoes.1] at hprimed
        cases hprimed
      · rw [h.plays.controller.target, hseen] at hle
        omega
    rw [Playback.tick_waits codec.decode hno, Line.play_waits hgoes.1 hgoes.2]
    exact ⟨rfl, next, frames, h, rfl, le_rfl⟩

end Playing

/-! ## On the wire -/

/-- A datagram that is accepted under this header and carries this frame. -/
structure Carries (header : Header) (dgram payload : Bytes) : Prop where
  short : dgram.length ≤ maxDatagram
  parses : ∃ audio, parseDatagram dgram = some (.ok (header, .audio audio)) ∧ audio.payload = payload ∧
    payload.length ≤ maxFrameBytes ∧ ∀ red, audio.redundant = some red → red.length ≤ maxFrameBytes

/-- The header of an audio datagram at a position of its stream. -/
def audioHeader (sessionId senderId : UInt16) (pos : Int) : Header :=
  { ptype := .audio, sessionId := sessionId, senderId := senderId, seq := lowSeq pos }

/-- Datagrams in a row from position `pos` on, and the frames they carry. -/
inductive InFlight (sessionId senderId : UInt16) : Int → List Bytes → List Bytes → Prop
  | nil (pos : Int) : InFlight sessionId senderId pos [] []
  | cons {pos : Int} {dgram payload : Bytes} {dgrams payloads : List Bytes}
      (h : Carries (audioHeader sessionId senderId pos) dgram payload)
      (hs : InFlight sessionId senderId (pos + 1) dgrams payloads) :
      InFlight sessionId senderId pos (dgram :: dgrams) (payload :: payloads)

section Wire

variable {sessionId senderId : UInt16} {pos : Int} {dgrams payloads : List Bytes}

theorem InFlight.length (h : InFlight sessionId senderId pos dgrams payloads) :
    dgrams.length = payloads.length := by
  induction h with
  | nil => rfl
  | cons _ _ ih => rw [List.length_cons, List.length_cons, ih]

theorem InFlight.snoc (h : InFlight sessionId senderId pos dgrams payloads) {dgram payload : Bytes}
    (hd : Carries (audioHeader sessionId senderId (pos + dgrams.length)) dgram payload) :
    InFlight sessionId senderId pos (dgrams ++ [dgram]) (payloads ++ [payload]) := by
  induction h with
  | nil pos =>
    rw [List.length_nil, Int.natCast_zero, Int.add_zero] at hd
    exact .cons hd (.nil _)
  | cons h _ ih =>
    refine .cons h (ih ?_)
    rw [List.length_cons, Nat.cast_add, Nat.cast_one] at hd
    rw [Int.add_assoc, Int.add_comm 1]
    exact hd

/-- The sending half of a pipeline: a frame that was encoded leaves, with the previous one, if that is
wanted. -/
theorem writeAudioDatagram_carries (sessionId senderId : UInt16) {seq : UInt16} {pos : Int}
    (hseq : seq = lowSeq pos) (timestamp : UInt32) (params : EngineParams) {payload : Bytes}
    (hlen : payload.length ≤ 960) (prev : PrevFrame) :
    ∃ dgram, writeAudioDatagram sessionId senderId seq timestamp params payload
        (if params.redundancy then prev.get else none) = some dgram ∧
      Carries (audioHeader sessionId senderId pos) dgram payload := by
  have hcopy : ∀ red, (if params.redundancy then prev.get else none) = some red →
      red.length ≤ maxFrameBytes := by
    intro red hred
    split at hred
    · exact PrevFrame.get_length_le hred
    · cases hred
  obtain ⟨dgram, hwrite, hshort, hparse⟩ := writeAudioDatagram_spec sessionId senderId seq timestamp params
    payload _ hlen hcopy
  rw [hseq] at hparse
  exact ⟨dgram, hwrite, hshort, _, hparse, rfl, hlen.trans (by decide), hcopy⟩

end Wire

/-! ## Links -/

/-- One direction between two players: the sender's numbers, its encoder, the datagrams on their way, and
the receiver's buffer and playout are together at the point at which the line is. -/
structure Link (codec : AudioCodec n ε σ) (sessionId senderId : UInt16) (depth : Nat) (seq : SeqGen)
    (encoder : ε) (dgrams : List Bytes) (jb : JitterBuffer) (sp : StreamPlayout n σ) (l : Line n ε σ) :
    Prop where
  plays : Plays depth sp l
  encoder : encoder = l.encoder
  stream : ∃ next frames, Queued jb next frames ∧ l.waiting = frames.map Frame.payload ∧
    InFlight sessionId senderId (next + frames.length) dgrams l.flying ∧
    seq.val = lowSeq (next + frames.length + dgrams.length)
  room : l.waiting.length ≤ min (depth + 2) ringSlots
  decodes : ∀ payload ∈ l.waiting ++ l.flying, Playback.Decodable codec.decode payload

namespace Link

variable {codec : AudioCodec n ε σ} {sessionId senderId : UInt16} {depth : Nat} {seq : SeqGen} {encoder : ε}
  {dgrams : List Bytes} {jb : JitterBuffer} {sp : StreamPlayout n σ} {l : Line n ε σ}

/-- Nothing has been sent yet. -/
theorem new (codec : AudioCodec n ε σ) (sessionId senderId : UInt16) (depth : Nat) (encoder : ε)
    {sp : StreamPlayout n σ} {decoder : σ} (h : Plays depth sp (Line.new encoder decoder)) :
    Link codec sessionId senderId depth SeqGen.new encoder [] JitterBuffer.new sp
      (Line.new encoder decoder) where
  plays := h
  encoder := rfl
  stream := ⟨0, [], Queued.new 0, rfl, .nil _, rfl⟩
  room := Nat.zero_le _
  decodes := fun _ hp => by cases hp

/-- Until it has begun, the playout may forget its state. -/
theorem resetStream (h : Link codec sessionId senderId depth seq encoder dgrams jb sp l)
    (hidle : l.playing = false) :
    Link codec sessionId senderId depth seq encoder dgrams jb sp.resetStream l :=
  ⟨h.plays.resetStream hidle, h.encoder, h.stream, h.room, h.decodes⟩

/-- The next number of the sender. -/
theorem position (h : Link codec sessionId senderId depth seq encoder dgrams jb sp l) :
    ∃ pos, seq.val = lowSeq pos ∧ ∀ dgram payload,
      Carries (audioHeader sessionId senderId pos) dgram payload →
      (∀ state pcm, (codec.decode state (some payload) pcm).1 = true) → ∀ encoder',
      Link codec sessionId senderId depth seq.next.2 encoder' (dgrams ++ [dgram]) jb sp
        { l with encoder := encoder', flying := l.flying ++ [payload] } := by
  obtain ⟨next, frames, hqueued, hwaiting, hflight, hseq⟩ := h.stream
  refine ⟨_, hseq, fun dgram payload hcarries hdecodes encoder' => ⟨⟨h.plays.controller, h.plays.primed,
    h.plays.insertPending, h.plays.driftEnabled, h.plays.decoder, h.plays.decodeBuf⟩, rfl, ⟨next, frames,
    hqueued, hwaiting, hflight.snoc hcarries, ?_⟩, h.room, fun p hp => ?_⟩⟩
  · show seq.val + 1 = _
    rw [hseq, ← lowSeq_add_one, List.length_append, List.length_singleton, Nat.cast_add, Nat.cast_one,
      ← Int.add_assoc]
  · rw [← List.append_assoc, List.mem_append, List.mem_singleton] at hp
    rcases hp with hp | rfl
    · exact h.decodes p hp
    · exact hdecodes

/-- The next datagram arrives. -/
theorem deliver {dgram : Bytes} (h : Link codec sessionId senderId depth seq encoder (dgram :: dgrams)
    jb sp l) (hroom : l.HasRoom depth) :
    ∃ header audio, dgram.length ≤ maxDatagram ∧
      parseDatagram dgram = some (.ok (header, .audio audio)) ∧ header.sessionId = sessionId ∧
      header.senderId = senderId ∧
      ∀ cfg nowUs jitter (stream : StreamShared), stream.jb = jb →
        Link codec sessionId senderId depth seq encoder dgrams
          (receiveAudio cfg nowUs jitter stream header audio).2.jb sp l.deliver := by
  obtain ⟨next, frames, hqueued, hwaiting, hflight, hseq⟩ := h.stream
  generalize hflying : l.flying = flying at hflight
  cases hflight with
  | cons hcarries hflight =>
    rename_i payload payloads
    obtain ⟨audio, hparse, rfl, hlen, hcopy⟩ := hcarries.parses
    refine ⟨_, audio, hcarries.short, hparse, rfl, rfl, fun cfg nowUs jitter stream hjb => ?_⟩
    have hlength : l.waiting.length = frames.length := by rw [hwaiting, List.length_map]
    have hring := lt_min_iff.mp hroom
    have hgrown : (frames ++ [(⟨audio.timestamp, audio.payload⟩ : Frame)]).length = frames.length + 1 :=
      List.length_append
    have hdeliver : l.deliver = { l with
        flying := payloads
        waiting := l.waiting ++ [audio.payload] } := by
      rw [Line.deliver, hflying]
    rw [hdeliver]
    refine ⟨⟨h.plays.controller, h.plays.primed, h.plays.insertPending, h.plays.driftEnabled,
      h.plays.decoder, h.plays.decodeBuf⟩, h.encoder, ⟨next, _, (hjb ▸ hqueued).receiveAudio
      (show frames.length < 64 by rw [← hlength]; exact hring.2) cfg nowUs jitter rfl hlen hcopy, ?_, ?_, ?_⟩,
      ?_, fun p hp => ?_⟩
    · rw [List.map_append, hwaiting]
      rfl
    · rw [hgrown, Nat.cast_add, Nat.cast_one, ← Int.add_assoc]
      exact hflight
    · rw [hseq, hgrown, List.length_cons]
      congr 1
      omega
    · rw [List.length_append, List.length_singleton]
      exact hroom
    · refine h.decodes p ?_
      rw [hflying]
      simpa using hp

/-- Nothing is on its way. -/
theorem deliver_nil (h : Link codec sessionId senderId depth seq encoder [] jb sp l) : l.deliver = l := by
  obtain ⟨next, frames, -, -, hflight, -⟩ := h.stream
  have hflying : l.flying = [] := List.length_eq_zero_iff.mp hflight.length.symm
  rw [Line.deliver, hflying]

/-- A tick of the receiver. -/
theorem tick (h : Link codec sessionId senderId depth seq encoder dgrams jb sp l) (hpos : 1 ≤ depth)
    (hready : l.Ready depth) (out : Samples n) :
    (sp.tick codec jb out).1.2 = (l.play codec depth).1 ∧
      Link codec sessionId senderId depth seq encoder dgrams (sp.tick codec jb out).2.2
        (sp.tick codec jb out).2.1 (l.play codec depth).2 := by
  obtain ⟨next, frames, hqueued, hwaiting, hflight, hseq⟩ := h.stream
  have hlength : l.waiting.length = frames.length := by rw [hwaiting, List.length_map]
  have hfollows : Follows depth { playout := sp, log := { BufferLog.new with buffer := jb }, played := [] }
      l next frames := ⟨h.plays, hqueued, hwaiting⟩
  have hdecodes : ∀ p ∈ l.waiting, Playback.Decodable codec.decode p :=
    fun p hp => h.decodes p (List.mem_append_left _ hp)
  obtain ⟨hout, next', frames', hafter, hsame, hless⟩ := hfollows.tick hpos hready (hlength ▸ h.room)
    hdecodes out
  have hplay : (l.play codec depth).2.flying = l.flying ∧ (l.play codec depth).2.encoder = l.encoder ∧
      ∀ p ∈ (l.play codec depth).2.waiting, p ∈ l.waiting := by
    unfold Line.play
    split
    · split
      · exact ⟨rfl, rfl, fun p hp => List.mem_of_mem_tail hp⟩
      · exact ⟨rfl, rfl, fun p hp => hp⟩
    · exact ⟨rfl, rfl, fun p hp => hp⟩
  refine ⟨hout, hafter.plays, h.encoder.trans hplay.2.1.symm, ⟨next', frames', hafter.queued,
    hafter.waiting, ?_, ?_⟩, ?_, fun p hp => h.decodes p ?_⟩
  · rw [hsame, hplay.1]
    exact hflight
  · rw [hsame]
    exact hseq
  · rw [hafter.waiting, List.length_map]
    exact hless.trans (hlength ▸ h.room)
  · rw [hplay.1] at hp
    rcases List.mem_append.mp hp with hp | hp
    · exact List.mem_append_left _ (hplay.2.2 p hp)
    · exact List.mem_append_right _ hp

end Link

end OnlineJam
