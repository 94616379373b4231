import OnlineJam.Core.Control
import OnlineJam.Core.Pipeline
import OnlineJam.Proofs.WireProofs

/-!
# What the datagrams of a session parse to

Control packets stamped by a control loop, answers to a PING, and audio.
-/

namespace OnlineJam

open OnlineJam.Lib

/-- What a datagram is to whoever parses it. -/
def Parses (bytes : Bytes) (header : Header) (payload : Payload) : Prop :=
  parseDatagram (bytes.take maxDatagram) = some (.ok (header, payload))

theorem Parses.unique {bytes : Bytes} {h h' : Header} {p p' : Payload} (hp : Parses bytes h p)
    (hp' : Parses bytes h' p') : h = h' ∧ p = p' := by
  have he := Option.some.inj (hp.symm.trans hp')
  exact Prod.mk.inj (Except.ok.inj he)

theorem parses_written (header : Header) (control : Control) (out : Bytes)
    (hr : control.RosterFits) (ht : header.ptype = control.packetType)
    (hlen : headerLen + control.wire.encode.length ≤ out.length) (hout : out.length ≤ maxDatagram) :
    ∃ buf n, control.write header out = some (buf, n) ∧
      Parses (buf.take n) header (.control control.wire) := by
  obtain ⟨buf, hw, _, hp⟩ := Payload.write_parseDatagram (p := .control control) out
    (ht.trans control.packetType_wire.symm) (Control.fits_wire hr) hlen
  refine ⟨buf, _, hw, ?_⟩
  rw [Parses, List.take_of_length_le]
  · exact hp
  · exact (List.length_take_le _ buf).trans (hlen.trans hout)

/-- A control packet is received as it was sent, names shortened. -/
theorem parses_stampedDatagram (seq : UInt16) {control : Control} (sessionId senderId : UInt16)
    (hr : control.RosterFits) :
    Parses (stampedDatagram seq control sessionId senderId)
      { ptype := control.packetType, sessionId := sessionId, senderId := senderId, seq := seq }
      (.control control.wire) := by
  have hlen : headerLen + control.wire.encode.length ≤ (List.replicate maxDatagram (0 : UInt8)).length := by
    rw [List.length_replicate]
    exact Control.encode_length_le (Control.fits_wire hr)
  obtain ⟨buf, n, hw, hp⟩ := parses_written ⟨control.packetType, sessionId, senderId, seq⟩ control
    (List.replicate maxDatagram 0) hr rfl hlen (by rw [List.length_replicate])
  have hs : stampedDatagram seq control sessionId senderId = buf.take n := by
    unfold stampedDatagram
    dsimp only
    rw [hw]
  exact hs ▸ hp

/-- The answer to a PING is a PONG. -/
theorem parses_pongReply (header : Header) (senderId : UInt16) (t1Us : UInt64) (nowUs t3Us : Nat) :
    ∃ bytes, pongReply header senderId t1Us nowUs t3Us = some bytes ∧
      Parses bytes
        { ptype := .pong, sessionId := header.sessionId, senderId := senderId, seq := header.seq }
        (.control (.pong t1Us (UInt64.ofNat nowUs) (UInt64.ofNat t3Us))) := by
  have hlen : headerLen + (Control.pong t1Us (UInt64.ofNat nowUs)
      (UInt64.ofNat t3Us)).wire.encode.length ≤ (List.replicate 64 (0 : UInt8)).length := by
    simp [Control.wire, Control.encode, headerLen]
  obtain ⟨buf, n, hw, hp⟩ := parses_written ⟨.pong, header.sessionId, senderId, header.seq⟩
    (.pong t1Us (UInt64.ofNat nowUs) (UInt64.ofNat t3Us)) (List.replicate 64 0) trivial rfl hlen
    (by rw [List.length_replicate]; decide)
  refine ⟨buf.take n, ?_, hp⟩
  simp only [pongReply, hw, Option.bind_eq_bind, Option.bind_some, Option.pure_def]

/-- Nobody takes this for a control packet. -/
def NoControl (bytes : Bytes) : Prop := ∀ header control, ¬ Parses bytes header (.control control)

theorem noControl_audio {header : Header} {p : AudioPacket} (out : Bytes) {buf : Bytes} {n : Nat}
    (ht : header.ptype = .audio) (hw : p.write header out = some (buf, n))
    (hout : out.length ≤ maxDatagram) : NoControl (buf.take n) := by
  intro header' control
  rw [AudioPacket.write_eq, writeOut] at hw
  obtain ⟨w, he, hbuf⟩ := Option.bind_eq_some_iff.mp hw
  obtain ⟨rfl, rfl⟩ := Prod.mk.inj (Option.some.inj hbuf)
  have hlen := Cursor.le_of_emit_eq_some he
  rw [Nat.zero_add] at hlen
  rw [Cursor.emit_zero hlen] at he
  rw [← Option.some.inj he, Parses, List.take_left, List.take_of_length_le (hlen.trans hout),
    parseDatagram_audio (Header.parse_encode _ _) ht]
  intro hp
  obtain ⟨q, _, hp⟩ := Checked.bind_eq_ok hp
  cases (Prod.mk.inj (Checked.ok_inj hp)).2

theorem noControl_writeAudioDatagram {sessionId senderId seq : UInt16} {timestamp : UInt32}
    {params : EngineParams} {payload : Bytes} {redundant : Option Bytes} {d : Bytes}
    (h : writeAudioDatagram sessionId senderId seq timestamp params payload redundant = some d) :
    NoControl d := by
  unfold writeAudioDatagram at h
  dsimp only at h
  rw [Option.bind_eq_bind, Option.bind_eq_some_iff] at h
  obtain ⟨⟨buf, n⟩, hw, hd⟩ := h
  rw [← Option.some.inj hd]
  exact noControl_audio (List.replicate maxDatagram 0) rfl hw (by rw [List.length_replicate])

/-- No frame of a client's pipeline is taken for a control packet. -/
theorem ClientPipeline.noControl_processFrame {p q : ClientPipeline} {shared : ClientShared}
    {encoded : Option Bytes} {d : Bytes} (h : p.processFrame shared encoded = some (some d, q)) :
    NoControl d := by
  obtain ⟨⟨dgram, p'⟩, hsend, hpair⟩ := Option.bind_eq_some_iff.mp h
  have hdgram : dgram = some d := (Prod.mk.inj (Option.some.inj hpair)).1
  subst hdgram
  unfold sendFrame at hsend
  split at hsend
  · split at hsend
    · obtain ⟨d', hw, hsend⟩ := Option.bind_eq_some_iff.mp hsend
      obtain ⟨prev, _, hsend⟩ := Option.bind_eq_some_iff.mp hsend
      rw [← Option.some.inj (Prod.mk.inj (Option.some.inj hsend)).1]
      exact noControl_writeAudioDatagram hw
    · cases (Prod.mk.inj (Option.some.inj hsend)).1
  · cases (Prod.mk.inj (Option.some.inj hsend)).1

theorem HostPipeline.noControl_sendFrame {p q : HostPipeline} {shared : HostShared}
    {c : Fin maxClients} {encoded : Option Bytes} {d : Bytes}
    (h : p.sendFrame shared c encoded = some (some d, q)) : NoControl d := by
  unfold sendFrame at h
  split at h
  · split at h
    · obtain ⟨d', hw, h⟩ := Option.bind_eq_some_iff.mp h
      obtain ⟨prev, _, h⟩ := Option.bind_eq_some_iff.mp h
      rw [← Option.some.inj (Prod.mk.inj (Option.some.inj h)).1]
      exact noControl_writeAudioDatagram hw
    · cases (Prod.mk.inj (Option.some.inj h)).1
  · cases (Prod.mk.inj (Option.some.inj h)).1

/-- The mixes of the host's pipeline go to slots, and none is taken for a control packet. -/
theorem HostPipeline.sendFrames_spec {shared : HostShared}
    {encoded : Vector (Option Bytes) maxClients} (cs : List (Fin maxClients)) :
    ∀ {p q : HostPipeline} {emitted : List (UInt8 × Bytes)},
      sendFrames shared encoded cs p = some (emitted, q) →
        ∀ item ∈ emitted, item.1 ≠ destPeer ∧ NoControl item.2 := by
  have hdest : ∀ c : Fin maxClients, UInt8.ofNat c.val ≠ destPeer := by decide
  induction cs with
  | nil =>
    intro p q emitted h item hitem
    rw [← (Prod.mk.inj (Option.some.inj h)).1] at hitem
    cases hitem
  | cons c cs ih =>
    intro p q emitted h item hitem
    obtain ⟨⟨dgram, p'⟩, hsend, h⟩ := Option.bind_eq_some_iff.mp h
    obtain ⟨⟨rest, p''⟩, hrest, h⟩ := Option.bind_eq_some_iff.mp h
    rw [← (Prod.mk.inj (Option.some.inj h)).1] at hitem
    rcases List.mem_append.mp hitem with hitem | hitem
    · obtain ⟨d, hd, rfl⟩ := List.mem_map.mp hitem
      rw [Option.mem_toList.mp hd] at hsend
      exact ⟨hdest c, noControl_sendFrame hsend⟩
    · exact ih hrest item hitem

end OnlineJam
