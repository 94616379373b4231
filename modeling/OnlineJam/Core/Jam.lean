import OnlineJam.Core.AudioPath
import OnlineJam.Core.Net

/-!
# A session, as the audio goes

The pipelines and receive threads of the host and of its clients, joined by wires that carry the
datagrams of each direction in order. All members have joined, and stay: the control traffic, the rings
to the transmit threads and the other streams of datagrams are left out. The buffers have a fixed depth
and there is no drift correction.
-/

namespace OnlineJam

/-- The host among the players; the client of slot `c` is `c.succ`. -/
abbrev hostPlayer : Fin (maxClients + 1) := ⟨0, Nat.succ_pos maxClients⟩

/-- The session, and the flags each player has started with. -/
structure JamConfig where
  params : EngineParams
  sessionId : UInt16
  hostAddr : SocketAddr
  /-- Where the client of a slot sends from. -/
  addr : Fin maxClients → SocketAddr
  /-- The slots that are taken. -/
  present : Fin maxClients → Bool
  echo : Bool
  monitor : Fin (maxClients + 1) → MonitorMode
  /-- The fixed depth of the jitter buffers of a player. -/
  depth : Fin (maxClients + 1) → Nat
  /-- The smoothing coefficient of the gains. -/
  alpha : ℚ

/-- The mix controls of the host, as the audio callback finds them. -/
structure HostControls where
  gains : Fin (maxClients + 1) → ℚ
  muted : Fin (maxClients + 1) → Bool
  soloed : Fin (maxClients + 1) → Bool
  monitorGain : ℚ

/-- The shared state with the controls as they are now. -/
def HostControls.apply (controls : HostControls) (shared : HostShared) : HostShared :=
  { shared with gains := controls.gains, muted := controls.muted, soloed := controls.soloed }

inductive JamEvent (n : Nat) where
  /-- The audio callback of the host. -/
  | host (controls : HostControls) (localIn : Samples n)
  /-- The audio callback of a client. -/
  | client (c : Fin maxClients) (masterGain monitorGain : ℚ) (localIn : Samples n)
  /-- The next datagram of a client arrives at the host. -/
  | deliverUp (c : Fin maxClients) (nowUs : Nat)
  /-- The next datagram for a client arrives there. -/
  | deliverDown (c : Fin maxClients) (nowUs : Nat)

/-- What a sound card gets to play: whose, and the frame. -/
abbrev Sound (n : Nat) := Fin (maxClients + 1) × Samples n

structure JamClient (n : Nat) (ε σ : Type) where
  audio : ClientAudio n ε σ
  shared : ClientShared
  rx : RxState

structure Jam (n : Nat) (ε σ : Type) where
  host : HostAudio n ε σ
  shared : HostShared
  rx : RxState
  clients : Fin maxClients → JamClient n ε σ
  /-- The datagrams on their way from a client. -/
  up : Fin maxClients → List Bytes
  /-- The datagrams on their way to a client. -/
  down : Fin maxClients → List Bytes

namespace Jam

variable {n : Nat} {ε σ : Type} (codec : AudioCodec n ε σ) (cfg : JamConfig)

def rxConfig : RxConfig :=
  { frameSamples := cfg.params.frameSamples, sampleRate := cfg.params.sampleRate }

/-- The playout that a player with this fixed depth starts with. -/
def newPlayout (decoder : σ) (p : Fin (maxClients + 1)) : StreamPlayout n σ :=
  StreamPlayout.new decoder cfg.params.sampleRate.toNat (some (cfg.depth p)) false

def newClient (encoder : ε) (decoder : σ) (c : Fin maxClients) : JamClient n ε σ :=
  { audio :=
      { playout := newPlayout cfg decoder c.succ, encoder := encoder
        sender := ClientPipeline.new cfg.params, monitor := cfg.monitor c.succ
        masterSmoother := SmoothedGain.new 1 cfg.alpha, monitorSmoother := SmoothedGain.new 1 cfg.alpha
        decoded := fun _ => 0, wasJoined := false }
    shared :=
      { ClientShared.new with
        joined := cfg.present c, senderId := HostHandshake.senderId c, sessionId := cfg.sessionId }
    rx := RxState.new }

/-- All members have joined, and no callback has run yet. -/
def start (encoder : ε) (decoder : σ) : Jam n ε σ :=
  { host :=
      { playouts := fun _ => newPlayout cfg decoder hostPlayer, encoders := fun _ => encoder
        mixer := HostMixer.new cfg.echo (cfg.monitor hostPlayer) cfg.alpha
        sender := HostPipeline.new cfg.params }
    shared :=
      { HostShared.new cfg.sessionId with
        clients := fun c => { StreamShared.new with active := cfg.present c } }
    rx := { RxState.new with clientAddrs := fun c => if cfg.present c then some (cfg.addr c) else none }
    clients := newClient cfg encoder decoder
    up := fun _ => []
    down := fun _ => [] }

/-- The datagrams for the client of a slot, among those the host has emitted. -/
def addressed (emitted : List (UInt8 × Bytes)) (c : Fin maxClients) : List Bytes :=
  (emitted.filter fun item => item.1 = UInt8.ofNat c.val).map Prod.snd

def hostFrame (j : Jam n ε σ) (controls : HostControls) (localIn : Samples n) :
    Option (Samples n × Jam n ε σ) := do
  let ((heard, emitted), host, shared) ←
    j.host.processFrame codec (controls.apply j.shared) controls.monitorGain localIn
  pure (heard,
    { j with
      host := host
      shared := shared
      down := fun c => j.down c ++ addressed emitted c })

def clientFrame (j : Jam n ε σ) (c : Fin maxClients) (masterGain monitorGain : ℚ)
    (localIn : Samples n) : Option (Samples n × Jam n ε σ) := do
  let client := j.clients c
  let ((heard, dgram), audio, shared) ←
    client.audio.processFrame codec client.shared masterGain monitorGain localIn
  pure (heard,
    { j with
      clients := Function.update j.clients c { client with audio := audio, shared := shared }
      up := Function.update j.up c (j.up c ++ dgram.toList) })

def deliverUp (j : Jam n ε σ) (c : Fin maxClients) (nowUs : Nat) : Jam n ε σ :=
  match j.up c with
  | dgram :: flying =>
    let r := routeHost (rxConfig cfg) nowUs nowUs j.rx j.shared (cfg.addr c) dgram
    { j with rx := r.rx, shared := r.shared, up := Function.update j.up c flying }
  | [] => j

def deliverDown (j : Jam n ε σ) (c : Fin maxClients) (nowUs : Nat) : Jam n ε σ :=
  match j.down c with
  | dgram :: flying =>
    let client := j.clients c
    let r := routeClient (rxConfig cfg) cfg.hostAddr nowUs nowUs client.rx client.shared cfg.hostAddr dgram
    { j with
      clients := Function.update j.clients c { client with rx := r.rx, shared := r.shared }
      down := Function.update j.down c flying }
  | [] => j

/-- One step; `none` stands for a panic. -/
def step (j : Jam n ε σ) : JamEvent n → Option (Option (Sound n) × Jam n ε σ)
  | .host controls localIn =>
    (j.hostFrame codec controls localIn).map fun (heard, j) => (some (hostPlayer, heard), j)
  | .client c masterGain monitorGain localIn =>
    (j.clientFrame codec c masterGain monitorGain localIn).map fun (heard, j) => (some (c.succ, heard), j)
  | .deliverUp c nowUs => some (none, j.deliverUp cfg c nowUs)
  | .deliverDown c nowUs => some (none, j.deliverDown cfg c nowUs)

/-- What the sound cards get in a run, and the state after it. -/
def run : List (JamEvent n) → Jam n ε σ → Option (List (Sound n) × Jam n ε σ)
  | [], j => some ([], j)
  | e :: es, j => do
    let (sound, j) ← j.step codec cfg e
    let (sounds, j) ← run es j
    pure (sound.toList ++ sounds, j)

end Jam

end OnlineJam
