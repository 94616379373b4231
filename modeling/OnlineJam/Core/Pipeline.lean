import OnlineJam.Core.Shared

/-!
# Pipelines, sending halves

The parts of `ClientPipeline::process_frame` and `HostPipeline::process_frame` (`jam-core`,
`pipeline.rs`) that send the local frame to the host and a mix to each client. Each frame comes with what
`encode` returned for it: playout, mixing and the encoder are in `AudioPath`, `HostMix` and `Codec`. As in
`Packet`, `none` stands for a panic.
-/

namespace OnlineJam

open OnlineJam.Lib

/-- The previous encoded frame, kept for the redundant copy. -/
structure PrevFrame where
  buf : Bytes
  len : Nat
  /-- The buffer is an array of fixed size. -/
  buf_length : buf.length = maxFrameBytes
  /-- A frame that was stored fits. -/
  len_le : len ≤ maxFrameBytes

namespace PrevFrame

def new : PrevFrame :=
  { buf := List.replicate maxFrameBytes 0, len := 0, buf_length := List.length_replicate,
    len_le := Nat.zero_le _ }

def store (p : PrevFrame) (data : Bytes) : Option PrevFrame :=
  if h : data.length ≤ maxFrameBytes then
    some { buf := data ++ p.buf.drop data.length
           len := data.length
           buf_length := by rw [List.length_append, List.length_drop, p.buf_length]; omega
           len_le := h }
  else none

def get (p : PrevFrame) : Option Bytes := if 0 < p.len then some (p.buf.take p.len) else none

end PrevFrame

/-- Fills a datagram buffer and returns the part that is sent. -/
def writeAudioDatagram (sessionId senderId seq : UInt16) (timestamp : UInt32) (params : EngineParams)
    (payload : Bytes) (redundant : Option Bytes) : Option Bytes := do
  let header : Header :=
    { ptype := .audio, sessionId := sessionId, senderId := senderId, seq := seq }
  let pkt : AudioPacket :=
    { timestamp := timestamp, codec := params.codec, payload := payload, redundant := redundant }
  let (dgram, n) ← pkt.write header (List.replicate maxDatagram 0)
  pure (dgram.take n)

/-! ## Client -/

structure ClientPipeline where
  params : EngineParams
  seq : SeqGen
  prevEnc : PrevFrame
  /-- Sample clock of the next frame; advances whether or not a frame is sent. -/
  sampleClock : UInt32

namespace ClientPipeline

def new (params : EngineParams) : ClientPipeline :=
  { params := params, seq := SeqGen.new, prevEnc := PrevFrame.new, sampleClock := 0 }

/-- Step 1 of `process_frame`: encode and send our own frame, if joined. -/
def sendFrame (p : ClientPipeline) (shared : ClientShared) (encoded : Option Bytes) :
    Option (Option Bytes × ClientPipeline) :=
  if shared.joined then
    match encoded with
    | some enc => do
      let redundant := if p.params.redundancy then p.prevEnc.get else none
      let dgram ← writeAudioDatagram shared.sessionId shared.senderId p.seq.next.1 p.sampleClock
        p.params enc redundant
      let prev ← p.prevEnc.store enc
      pure (some dgram, { p with seq := p.seq.next.2, prevEnc := prev })
    | none => some (none, p)
  else some (none, p)

/-- One frame tick: the emitted datagram, if any, and the pipeline after it. -/
def processFrame (p : ClientPipeline) (shared : ClientShared) (encoded : Option Bytes) :
    Option (Option Bytes × ClientPipeline) := do
  let (dgram, p) ← p.sendFrame shared encoded
  pure (dgram, { p with sampleClock := p.sampleClock + UInt32.ofNat p.params.frameSamples })

end ClientPipeline

/-! ## Host -/

structure HostPipeline where
  params : EngineParams
  seqs : Fin maxClients → SeqGen
  prevEnc : Fin maxClients → PrevFrame
  lastActive : Fin maxClients → Bool
  sampleClock : UInt32

namespace HostPipeline

def new (params : EngineParams) : HostPipeline :=
  { params := params, seqs := fun _ => SeqGen.new, prevEnc := fun _ => PrevFrame.new,
    lastActive := fun _ => false, sampleClock := 0 }

/-- Step 3 of `process_frame` for one client. -/
def sendFrame (p : HostPipeline) (shared : HostShared) (c : Fin maxClients) (encoded : Option Bytes) :
    Option (Option Bytes × HostPipeline) :=
  if p.lastActive c then
    match encoded with
    | some enc => do
      let redundant := if p.params.redundancy then (p.prevEnc c).get else none
      let dgram ← writeAudioDatagram shared.sessionId hostSenderId (p.seqs c).next.1 p.sampleClock
        p.params enc redundant
      let prev ← (p.prevEnc c).store enc
      pure (some dgram,
        { p with
          seqs := Function.update p.seqs c (p.seqs c).next.2
          prevEnc := Function.update p.prevEnc c prev })
    | none => some (none, p)
  else some (none, p)

/-- The loop of step 3: the emitted datagrams by slot. -/
def sendFrames (shared : HostShared) (encoded : Vector (Option Bytes) maxClients) :
    List (Fin maxClients) → HostPipeline → Option (List (UInt8 × Bytes) × HostPipeline)
  | [], p => some ([], p)
  | c :: cs, p => do
    let (dgram, p) ← p.sendFrame shared c encoded[c]
    let (emitted, p) ← sendFrames shared encoded cs p
    pure (dgram.toList.map (fun d => (UInt8.ofNat c.val, d)) ++ emitted, p)

/-- One frame tick: the emitted datagrams and the pipeline after it. -/
def processFrame (p : HostPipeline) (shared : HostShared)
    (encoded : Vector (Option Bytes) maxClients) :
    Option (List (UInt8 × Bytes) × HostPipeline) := do
  let p := { p with lastActive := fun c => (shared.clients c).active }
  let (emitted, p) ← sendFrames shared encoded (List.finRange maxClients) p
  pure (emitted, { p with sampleClock := p.sampleClock + UInt32.ofNat p.params.frameSamples })

end HostPipeline

end OnlineJam
