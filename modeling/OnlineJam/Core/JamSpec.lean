import OnlineJam.Core.Jam

/-!
# What a session is for

The players are joined by lines on which encoded frames travel in order. Nothing is numbered or lost
here: a line delivers each frame that was put in once, one at a tick, as soon as the first few have
arrived.
-/

namespace OnlineJam

variable {n : Nat} {ε σ : Type}

/-- One direction between two players. -/
structure Line (n : Nat) (ε σ : Type) where
  encoder : ε
  /-- Frames on their way. -/
  flying : List Bytes
  /-- Frames that have arrived and were not played yet. -/
  waiting : List Bytes
  /-- The first few frames have arrived. -/
  playing : Bool
  decoder : σ
  /-- What the decoder put out last. -/
  last : Samples n

namespace Line

variable (codec : AudioCodec n ε σ)

def new (encoder : ε) (decoder : σ) : Line n ε σ :=
  { encoder := encoder, flying := [], waiting := [], playing := false, decoder := decoder
    last := fun _ => 0 }

def send (l : Line n ε σ) (x : Samples n) : Line n ε σ :=
  let (payload, encoder) := codec.encode l.encoder x
  { l with encoder := encoder, flying := l.flying ++ payload.toList }

def deliver (l : Line n ε σ) : Line n ε σ :=
  match l.flying with
  | payload :: flying => { l with flying := flying, waiting := l.waiting ++ [payload] }
  | [] => l

/-- The line after its next frame, which is decoded from `payload`. -/
def advance (l : Line n ε σ) (payload : Bytes) : Line n ε σ :=
  let (_, pcm, decoder) := codec.decode l.decoder (some payload) l.last
  { l with waiting := l.waiting.tail, playing := true, decoder := decoder, last := pcm }

/-- The next frame, or silence until `depth` of them have arrived. -/
def play (depth : Nat) (l : Line n ε σ) : Samples n × Line n ε σ :=
  match l.waiting with
  | payload :: _ =>
    if l.playing ∨ depth ≤ l.waiting.length then
      let l := l.advance codec payload
      (l.last, l)
    else (fun _ => 0, l)
  | [] => (fun _ => 0, l)

/-- A line that plays has its next `depth` frames when one of them is to be played. -/
def Ready (depth : Nat) (l : Line n ε σ) : Prop := l.playing = true → depth ≤ l.waiting.length

/-- The next frame to arrive is at most two frames early, and the ring has room for it. -/
def HasRoom (depth : Nat) (l : Line n ε σ) : Prop := l.waiting.length < min (depth + 2) ringSlots

instance (depth : Nat) (l : Line n ε σ) : Decidable (l.Ready depth) :=
  inferInstanceAs (Decidable (l.playing = true → depth ≤ l.waiting.length))

instance (depth : Nat) (l : Line n ε σ) : Decidable (l.HasRoom depth) :=
  inferInstanceAs (Decidable (l.waiting.length < min (depth + 2) ringSlots))

end Line

/-- What a session relies on from its codec: encoded frames are no longer than uncompressed ones, and
can be decoded. -/
structure AudioCodec.Sound (codec : AudioCodec n ε σ) : Prop where
  short : ∀ encoder x payload, (codec.encode encoder x).1 = some payload → payload.length ≤ 960
  decodes : ∀ encoder x payload, (codec.encode encoder x).1 = some payload →
    ∀ decoder pcm, (codec.decode decoder (some payload) pcm).1 = true

/-- What a client keeps for its own output. -/
structure Listener where
  master : SmoothedGain
  monitor : SmoothedGain

def Listener.new (alpha : ℚ) : Listener :=
  { master := SmoothedGain.new 1 alpha, monitor := SmoothedGain.new 1 alpha }

/-- What a client plays of the mix that comes back, with its own direct monitor. -/
def Listener.hear (l : Listener) (mode : MonitorMode) (masterGain monitorGain : ℚ)
    (mix localIn : Samples n) : Samples n × Listener :=
  let (gMaster, master) := l.master.next masterGain
  let out : Samples n := fun i => mix i * gMaster
  if mode = .direct then
    let (gMon, monitor) := l.monitor.next monitorGain
    (softClipBuf (mixScaled out localIn gMon), { master := master, monitor := monitor })
  else (softClipBuf out, { l with master := master })

/-- The players, joined by lines. -/
structure IdealJam (n : Nat) (ε σ : Type) where
  mixer : HostMixer n
  up : Fin maxClients → Line n ε σ
  down : Fin maxClients → Line n ε σ
  listeners : Fin maxClients → Listener

namespace IdealJam

variable (codec : AudioCodec n ε σ) (cfg : JamConfig)

def start (encoder : ε) (decoder : σ) : IdealJam n ε σ :=
  { mixer := HostMixer.new cfg.echo (cfg.monitor hostPlayer) cfg.alpha
    up := fun _ => Line.new encoder decoder
    down := fun _ => Line.new encoder decoder
    listeners := fun _ => Listener.new cfg.alpha }

/-- What the host mixes in a tick. -/
def mixInput (controls : HostControls) (localIn : Samples n) (decoded : Fin maxClients → Samples n) :
    MixInput n :=
  { active := cfg.present
    shared := controls.apply
      { HostShared.new cfg.sessionId with
        clients := fun c => { StreamShared.new with active := cfg.present c } }
    monitorGain := controls.monitorGain
    localIn := localIn
    decoded := decoded }

/-- The frame of a client in a tick of the host, and the line after it. -/
def heardUp (j : IdealJam n ε σ) (c : Fin maxClients) : Samples n × Line n ε σ :=
  if cfg.present c then (j.up c).play codec (cfg.depth hostPlayer) else (fun _ => 0, j.up c)

def hostFrame (j : IdealJam n ε σ) (controls : HostControls) (localIn : Samples n) :
    Samples n × IdealJam n ε σ :=
  let (out, mixer) := j.mixer.processFrame
    (mixInput cfg controls localIn fun c => (j.heardUp codec cfg c).1)
  (out.toHost,
    { j with
      mixer := mixer
      up := fun c => (j.heardUp codec cfg c).2
      down := fun c => match out.toEncoder c with
        | some frame => (j.down c).send codec frame
        | none => j.down c })

/-- The mix of a client in a tick of its own, and the line after it. -/
def heardDown (j : IdealJam n ε σ) (c : Fin maxClients) : Samples n × Line n ε σ :=
  if cfg.present c then (j.down c).play codec (cfg.depth c.succ) else (fun _ => 0, j.down c)

def clientFrame (j : IdealJam n ε σ) (c : Fin maxClients) (masterGain monitorGain : ℚ)
    (localIn : Samples n) : Samples n × IdealJam n ε σ :=
  let (mix, down) := j.heardDown codec cfg c
  let (heard, listener) := (j.listeners c).hear (cfg.monitor c.succ) masterGain monitorGain mix localIn
  (heard,
    { j with
      up := Function.update j.up c (if cfg.present c then (j.up c).send codec localIn else j.up c)
      down := Function.update j.down c down
      listeners := Function.update j.listeners c listener })

def step (j : IdealJam n ε σ) : JamEvent n → Option (Sound n) × IdealJam n ε σ
  | .host controls localIn =>
    let (heard, j) := j.hostFrame codec cfg controls localIn
    (some (hostPlayer, heard), j)
  | .client c masterGain monitorGain localIn =>
    let (heard, j) := j.clientFrame codec cfg c masterGain monitorGain localIn
    (some (c.succ, heard), j)
  | .deliverUp c _ => (none, { j with up := Function.update j.up c (j.up c).deliver })
  | .deliverDown c _ => (none, { j with down := Function.update j.down c (j.down c).deliver })

def run : List (JamEvent n) → IdealJam n ε σ → List (Sound n) × IdealJam n ε σ
  | [], j => ([], j)
  | e :: es, j =>
    let (sound, j) := j.step codec cfg e
    let (sounds, j) := run es j
    (sound.toList ++ sounds, j)

/-- The step comes in time: what is to be played is there, and what arrives is not too early. -/
def Paced (j : IdealJam n ε σ) : JamEvent n → Prop
  | .host .. => ∀ c, cfg.present c = true → (j.up c).Ready (cfg.depth hostPlayer)
  | .client c .. => cfg.present c = true → (j.down c).Ready (cfg.depth c.succ)
  | .deliverUp c _ => (j.up c).HasRoom (cfg.depth hostPlayer)
  | .deliverDown c _ => (j.down c).HasRoom (cfg.depth c.succ)

instance (j : IdealJam n ε σ) (e : JamEvent n) : Decidable (j.Paced cfg e) :=
  match e with
  | .host .. => inferInstanceAs (Decidable (∀ c, cfg.present c = true → (j.up c).Ready (cfg.depth hostPlayer)))
  | .client c .. =>
    inferInstanceAs (Decidable (cfg.present c = true → (j.down c).Ready (cfg.depth c.succ)))
  | .deliverUp c _ => inferInstanceAs (Decidable ((j.up c).HasRoom (cfg.depth hostPlayer)))
  | .deliverDown c _ => inferInstanceAs (Decidable ((j.down c).HasRoom (cfg.depth c.succ)))

/-- Every step of the run comes in time. -/
def PacedRun : List (JamEvent n) → IdealJam n ε σ → Prop
  | [], _ => True
  | e :: es, j => j.Paced cfg e ∧ PacedRun es (j.step codec cfg e).2

instance decidablePacedRun : (es : List (JamEvent n)) → (j : IdealJam n ε σ) →
    Decidable (j.PacedRun codec cfg es)
  | [], _ => inferInstanceAs (Decidable True)
  | e :: es, j =>
    have := decidablePacedRun es (j.step codec cfg e).2
    inferInstanceAs (Decidable (j.Paced cfg e ∧ PacedRun codec cfg es (j.step codec cfg e).2))

end IdealJam

end OnlineJam
