import OnlineJam.Core.JamSpec

/-!
# A session in lock step

All clocks run alike: in every round each client plays, then the host, and the network is done with a
round before the next one begins. What such a session amounts to is a mixing desk with delay lines: no
buffers, no numbers, no network.
-/

namespace OnlineJam

variable {n : Nat} {ε σ : Type}

/-- What goes into one round. -/
structure Round (n : Nat) where
  nowUs : Nat
  controls : HostControls
  /-- The captured frame of the host. -/
  hostIn : Samples n
  masterGain : Fin maxClients → ℚ
  monitorGain : Fin maxClients → ℚ
  /-- The captured frames of the clients. -/
  clientIn : Fin maxClients → Samples n

/-- The steps of a round in their order. -/
def Round.events (r : Round n) : List (JamEvent n) :=
  (List.finRange maxClients).map
      (fun c => .client c (r.masterGain c) (r.monitorGain c) (r.clientIn c)) ++
    (List.finRange maxClients).map (fun c => .deliverUp c r.nowUs) ++
    .host r.controls r.hostIn ::
    (List.finRange maxClients).map fun c => .deliverDown c r.nowUs

/-- A codec whose decoder follows its encoder at once. -/
structure Tape (n : Nat) (ε σ : Type) where
  encoder : ε
  decoder : σ
  /-- The buffer of the decoder. -/
  last : Samples n
  /-- What has come out, the newest frame first. -/
  past : List (Samples n)

namespace Tape

def new (encoder : ε) (decoder : σ) : Tape n ε σ :=
  { encoder := encoder, decoder := decoder, last := fun _ => 0, past := [] }

def record (codec : AudioCodec n ε σ) (t : Tape n ε σ) (x : Samples n) : Tape n ε σ :=
  match codec.encode t.encoder x with
  | (some payload, encoder) =>
    let (_, pcm, decoder) := codec.decode t.decoder (some payload) t.last
    { encoder := encoder, decoder := decoder, last := pcm, past := pcm :: t.past }
  | (none, encoder) => { t with encoder := encoder }

/-- The newest frame if `depth` is 1, the one before if it is 2; silence where there is none yet. -/
def delayed (depth : Nat) (t : Tape n ε σ) : Samples n := t.past.getD (depth - 1) fun _ => 0

end Tape

/-- The mixing desk. -/
structure Desk (n : Nat) (ε σ : Type) where
  mixer : HostMixer n
  up : Fin maxClients → Tape n ε σ
  down : Fin maxClients → Tape n ε σ
  listeners : Fin maxClients → Listener

namespace Desk

variable (codec : AudioCodec n ε σ) (cfg : JamConfig)

def start (encoder : ε) (decoder : σ) : Desk n ε σ :=
  { mixer := HostMixer.new cfg.echo (cfg.monitor hostPlayer) cfg.alpha
    up := fun _ => Tape.new encoder decoder
    down := fun _ => Tape.new encoder decoder
    listeners := fun _ => Listener.new cfg.alpha }

/-- What a client plays in a round. -/
def hear (d : Desk n ε σ) (r : Round n) (c : Fin maxClients) : Samples n × Listener :=
  (d.listeners c).hear (cfg.monitor c.succ) (r.masterGain c) (r.monitorGain c)
    (if cfg.present c then (d.down c).delayed (cfg.depth c.succ) else fun _ => 0) (r.clientIn c)

/-- The tape of a client after its frame of a round. -/
def recordUp (d : Desk n ε σ) (r : Round n) (c : Fin maxClients) : Tape n ε σ :=
  if cfg.present c then (d.up c).record codec (r.clientIn c) else d.up c

/-- What the host makes of a round. -/
def mix (d : Desk n ε σ) (r : Round n) : MixOutput n × HostMixer n :=
  d.mixer.processFrame (IdealJam.mixInput cfg r.controls r.hostIn fun c =>
    if cfg.present c then (d.recordUp codec cfg r c).delayed (cfg.depth hostPlayer) else fun _ => 0)

def round (d : Desk n ε σ) (r : Round n) : List (Sound n) × Desk n ε σ :=
  let (out, mixer) := d.mix codec cfg r
  ((List.finRange maxClients).map (fun c => (c.succ, (d.hear cfg r c).1)) ++ [(hostPlayer, out.toHost)],
    { mixer := mixer
      up := d.recordUp codec cfg r
      down := fun c => match out.toEncoder c with
        | some frame => (d.down c).record codec frame
        | none => d.down c
      listeners := fun c => (d.hear cfg r c).2 })

/-- What everybody plays in a session of such rounds. -/
def run : List (Round n) → Desk n ε σ → List (Sound n)
  | [], _ => []
  | r :: rs, d =>
    let (sounds, d) := d.round codec cfg r
    sounds ++ run rs d

end Desk

end OnlineJam
