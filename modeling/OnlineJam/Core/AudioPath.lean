import OnlineJam.Audio.Codec
import OnlineJam.Core.HostMix
import OnlineJam.Core.Pipeline
import OnlineJam.Core.Playout

/-!
# Pipelines

`HostPipeline::process_frame` and `ClientPipeline::process_frame` of `jam-core`, `pipeline.rs`, put
together from the playout of the incoming streams, the mixing and the sending. The codec is a parameter.
The level meters are left out.
-/

namespace OnlineJam

variable {n : Nat} {ε σ : Type} (codec : AudioCodec n ε σ)

/-- `StreamPlayout::tick` on the jitter buffer of its stream. -/
def StreamPlayout.tick (sp : StreamPlayout n σ) (jb : JitterBuffer) (out : Samples n) :
    (Bool × Samples n) × StreamPlayout n σ × JitterBuffer :=
  let p : Playback n σ := { playout := sp, log := { BufferLog.new with buffer := jb }, played := [] }
  let (heard, p) := p.tick codec.decode out
  (heard, p.playout, p.log.buffer)

/-! ## Host -/

structure HostAudio (n : Nat) (ε σ : Type) where
  playouts : Fin maxClients → StreamPlayout n σ
  encoders : Fin maxClients → ε
  mixer : HostMixer n
  sender : HostPipeline

namespace HostAudio

/-- Step 1 for one client. -/
def pullClient (sp : StreamPlayout n σ) (stream : StreamShared) (wasActive : Bool) (buf : Samples n) :
    Samples n × StreamPlayout n σ × StreamShared :=
  if stream.active then
    -- Slot came alive: forget stale playout state.
    let sp := if wasActive then sp else sp.resetStream
    let ((_, out), sp, jb) := sp.tick codec stream.jb buf
    (out, sp, { stream with jb := jb })
  else (fun _ => 0, sp, stream)

/-- Step 1: what it makes of each client. -/
def pull (a : HostAudio n ε σ) (shared : HostShared) (c : Fin maxClients) :
    Samples n × StreamPlayout n σ × StreamShared :=
  pullClient codec (a.playouts c) (shared.clients c) (a.mixer.lastActive c) (a.mixer.decoded c)

/-- The encoder's part in step 3 for one client, which gets a frame only if it is active. -/
def encodeClient (encoder : ε) (clientOut : Option (Samples n)) : Option Bytes × ε :=
  match clientOut with
  | some out => codec.encode encoder (softClipBuf out)
  | none => (none, encoder)

/-- One frame tick: what the host hears and the emitted datagrams, with the state after it. -/
def processFrame (a : HostAudio n ε σ) (shared : HostShared) (monitorGain : ℚ) (localIn : Samples n) :
    Option ((Samples n × List (UInt8 × Bytes)) × HostAudio n ε σ × HostShared) := do
  let pulled := a.pull codec shared
  let shared := { shared with clients := fun c => (pulled c).2.2 }
  let (out, mixer) := a.mixer.processFrame
    { active := fun c => (shared.clients c).active, shared := shared, monitorGain := monitorGain
      localIn := localIn, decoded := fun c => (pulled c).1 }
  let encoded := fun c => encodeClient codec (a.encoders c) (out.clientOut c)
  let (emitted, sender) ← a.sender.processFrame shared (Vector.ofFn fun c => (encoded c).1)
  pure ((out.toHost, emitted),
    { playouts := fun c => (pulled c).2.1, encoders := fun c => (encoded c).2, mixer := mixer
      sender := sender }, shared)

end HostAudio

/-! ## Client -/

structure ClientAudio (n : Nat) (ε σ : Type) where
  playout : StreamPlayout n σ
  encoder : ε
  sender : ClientPipeline
  monitor : MonitorMode
  masterSmoother : SmoothedGain
  monitorSmoother : SmoothedGain
  decoded : Samples n
  wasJoined : Bool

namespace ClientAudio

/-- Step 3: the mix at the master gain, with the direct monitor, if any. -/
def mixOut (a : ClientAudio n ε σ) (masterGain monitorGain : ℚ) (localIn : Samples n) :
    Samples n × ClientAudio n ε σ :=
  let (gMaster, masterSmoother) := a.masterSmoother.next masterGain
  let out : Samples n := fun i => a.decoded i * gMaster
  let a := { a with masterSmoother := masterSmoother }
  if a.monitor = .direct then
    let (gMon, monitorSmoother) := a.monitorSmoother.next monitorGain
    (softClipBuf (mixScaled out localIn gMon), { a with monitorSmoother := monitorSmoother })
  else (softClipBuf out, a)

/-- Step 2: the mix coming back from the host. -/
def pull (sp : StreamPlayout n σ) (shared : ClientShared) (buf : Samples n) :
    Samples n × StreamPlayout n σ × ClientShared :=
  if shared.joined then
    let ((_, out), sp, jb) := sp.tick codec shared.fromHost.jb buf
    (out, sp, { shared with fromHost := { shared.fromHost with jb := jb } })
  else (fun _ => 0, sp, shared)

/-- One frame tick: what the player hears and the emitted datagram, with the state after it. -/
def processFrame (a : ClientAudio n ε σ) (shared : ClientShared) (masterGain monitorGain : ℚ)
    (localIn : Samples n) :
    Option ((Samples n × Option Bytes) × ClientAudio n ε σ × ClientShared) := do
  let playout := if shared.joined ∧ ¬ a.wasJoined then a.playout.resetStream else a.playout
  let (encoded, encoder) :=
    if shared.joined then codec.encode a.encoder localIn else (none, a.encoder)
  let (dgram, sender) ← a.sender.processFrame shared encoded
  let (decoded, playout, shared) := pull codec playout shared a.decoded
  let (out, a) := mixOut
    { a with
      playout := playout, encoder := encoder, sender := sender, decoded := decoded
      wasJoined := shared.joined } masterGain monitorGain localIn
  pure ((out, dgram), a, shared)

end ClientAudio

end OnlineJam
