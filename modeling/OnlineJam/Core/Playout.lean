import OnlineJam.Audio.BufferLog
import OnlineJam.Audio.Playout
import OnlineJam.Audio.Resample

/-!
# Playout of one stream

`StreamPlayout` of `jam-core`, `playout.rs`, owned by the audio callback, together with the jitter buffer
it reads. The decoder is a parameter: `decode` gets what to decode, nothing for concealment, and the
buffer to decode into, and tells whether it succeeded. The buffer is the one of a log; the log, and the
list of what was played, are never read.
-/

namespace OnlineJam

/-- The largest frame supported on the wire. -/
abbrev maxFrameSamples : Nat := 240

/-- Headroom over the nominal frame for resampler output. -/
abbrev resampleSlack : Nat := 8

structure StreamPlayout (n : Nat) (σ : Type) where
  decoder : σ
  controller : PlayoutController
  /-- When set, the next pull plays a concealed frame without consuming from the buffer. -/
  insertPending : Bool
  driftEnabled : Bool
  resampler : HermiteResampler
  drift : DriftController
  staging : SampleFifo
  decodeBuf : Samples n

/-- The playout of a stream and the jitter buffer of the stream. -/
structure Playback (n : Nat) (σ : Type) where
  playout : StreamPlayout n σ
  log : BufferLog
  /-- The numbers of the stored pushes whose frames were popped and decoded. -/
  played : List Nat

variable {n : Nat} {σ : Type} (decode : σ → Option Bytes → Samples n → Bool × Samples n × σ)

namespace StreamPlayout

def new (decoder : σ) (sampleRate : Nat) (jitterFixed : Option Int) (driftCorrection : Bool) :
    StreamPlayout n σ :=
  let controller := PlayoutController.new n sampleRate
  let controller := match jitterFixed with
    | some frames => controller.setFixed frames
    | none => controller
  { decoder := decoder
    controller := if driftCorrection then controller.setDeadband 3 else controller
    insertPending := false
    driftEnabled := driftCorrection
    resampler := HermiteResampler.new
    drift := DriftController.new
    staging := SampleFifo.new (n * 4 + 2 * resampleSlack)
    decodeBuf := fun _ => 0 }

/-- Packet-loss concealment into the decode buffer, whether it succeeds or not. -/
def conceal (sp : StreamPlayout n σ) : StreamPlayout n σ :=
  let (_, pcm, decoder) := decode sp.decoder none sp.decodeBuf
  { sp with decoder := decoder, decodeBuf := pcm }

/-- Forget priming and pending state, staged samples included; the drift estimate is kept. -/
def resetStream (sp : StreamPlayout n σ) : StreamPlayout n σ :=
  { sp with
    controller := sp.controller.reset
    insertPending := false
    staging := { sp.staging with samples := [] }
    resampler := HermiteResampler.new.setRatio (1 + sp.drift.currentPpm / 1000000) }

end StreamPlayout

namespace Playback

def new (decoder : σ) (sampleRate : Nat) (jitterFixed : Option Int) (driftCorrection : Bool) :
    Playback n σ :=
  { playout := StreamPlayout.new decoder sampleRate jitterFixed driftCorrection
    log := BufferLog.new
    played := [] }

/-- Pops the next frame and decodes it; returns whether there was one that could be decoded. -/
def popDecoded (p : Playback n σ) : Bool × Playback n σ :=
  match p.log.buffer.popNext.1 with
  | .frame data _ =>
    let (ok, pcm, decoder) := decode p.playout.decoder (some data) p.playout.decodeBuf
    let playout := { p.playout with decoder := decoder, decodeBuf := pcm }
    if ok then
      (true,
        { playout := playout
          log := p.log.pop
          played := p.played ++ (p.log.latest p.log.buffer.nextSeq).toList.map Prod.fst })
    else (false, { p with playout := playout.conceal decode, log := p.log.pop })
  | .missing => (false, { p with playout := p.playout.conceal decode, log := p.log.pop })

/-- The first half of `pull_decoded_into`. -/
def decodeNext (p : Playback n σ) : Bool × Playback n σ :=
  if p.playout.insertPending then
    (false, { p with playout := { p.playout with insertPending := false }.conceal decode })
  else p.popDecoded decode

/-- Pulls one packet or concealment into the decode buffer; `none` is a prolonged outage, and then the
jitter buffer has been reset. -/
def pullDecoded (p : Playback n σ) : Option Bool × Playback n σ :=
  let (hit, p) := p.decodeNext decode
  let (interrupted, controller) := p.playout.controller.postPop hit p.log.buffer.stats.jitterUs
  if interrupted then
    (none, { p with
      playout := { p.playout with controller := controller }
      log := p.log.step .reset })
  else
    let controller := controller.observeDepth p.log.buffer.depth
    (some hit, { p with playout := { p.playout with controller := controller } })

/-- Applies at most one coarse depth correction, only at quiet moments. -/
def applyStepAdjustment (p : Playback n σ) (out : Samples n) : Playback n σ :=
  if isQuiet out then
    let (adjust, controller) := p.playout.controller.takeAdjustment
    let playout := { p.playout with controller := controller }
    match adjust with
    | .none => { p with playout := playout }
    | .dropOne => { p with playout := playout, log := p.log.step .skip }
    | .insertOne => { p with playout := { playout with insertPending := true } }
  else p

/-- One packet per tick, drop and insert for drift. -/
def tickStepped (p : Playback n σ) : (Bool × Samples n) × Playback n σ :=
  let (hit, p) := p.pullDecoded decode
  match hit with
  | none => ((false, fun _ => 0), p)
  | some _ => ((true, p.playout.decodeBuf), p.applyStepAdjustment p.playout.decodeBuf)

/-- Puts the decode buffer through the resampler into the staging FIFO. -/
def stage (p : Playback n σ) : Playback n σ :=
  let (out, resampler) :=
    p.playout.resampler.process (List.ofFn p.playout.decodeBuf) (maxFrameSamples + resampleSlack)
  { p with
    playout := { p.playout with resampler := resampler, staging := (p.playout.staging.push out).2 } }

/-- What the resampler makes of the decode buffer, were there room for all of it. -/
def resampled (p : Playback n σ) : List ℚ × HermiteResampler :=
  p.playout.resampler.feedAll (List.ofFn p.playout.decodeBuf)

/-- The loop of `tick_resampled`; false after an outage. -/
def fillStaging : Nat → Playback n σ → Bool × Playback n σ
  | 0, p => (true, p)
  | fuel + 1, p =>
    if p.playout.staging.len < n then
      let (hit, p) := p.pullDecoded decode
      match hit with
      | none => (false, p)
      | some _ => fillStaging fuel p.stage
    else (true, p)

/-- The loop never takes more rounds than this. -/
abbrev fillRounds : Nat := 6

/-- The pulls of that loop: what each one returned, and the playout after it. -/
def pulls : Nat → Playback n σ → List (Option Bool × Playback n σ)
  | 0, _ => []
  | fuel + 1, p =>
    if p.playout.staging.len < n then
      let (hit, p) := p.pullDecoded decode
      (hit, p) :: if hit.isSome then pulls fuel p.stage else []
    else []

/-- The playout with the ratio for this tick. -/
def rated (p : Playback n σ) : Playback n σ :=
  let err : Int := p.log.buffer.depth - p.playout.controller.target
  { p with playout := { p.playout with
      drift := (p.playout.drift.update err).2
      resampler := p.playout.resampler.setRatio (p.playout.drift.update err).1 } }

/-- Decoded frames flow through the resampler into the staging FIFO; one frame leaves per tick. -/
def tickResampled (p : Playback n σ) (out : Samples n) : (Bool × Samples n) × Playback n σ :=
  let err : Int := p.log.buffer.depth - p.playout.controller.target
  let (ratio, drift) := p.playout.drift.update err
  let p := { p with
    playout := { p.playout with drift := drift, resampler := p.playout.resampler.setRatio ratio } }
  let (live, p) := fillStaging decode fillRounds p
  if live then
    let (popped, staging) := p.playout.staging.pop n
    let out : Samples n := match popped with
      | some samples => fun i => samples.getD i 0
      | none => out
    let p := { p with playout := { p.playout with staging := staging } }
    ((true, out), p.applyStepAdjustment out)
  else ((false, fun _ => 0), { p with playout := p.playout.resetStream })

/-- The first step of a tick: whether there is anything to play. -/
def prime (p : Playback n σ) : Bool × Playback n σ :=
  let (go, controller) := p.playout.controller.prePop p.log.buffer.depth p.log.buffer.isStarted
  (go, { p with playout := { p.playout with controller := controller } })

/-- Produces one frame into `out`; returns true if the stream is live. -/
def tick (p : Playback n σ) (out : Samples n) : (Bool × Samples n) × Playback n σ :=
  let (go, controller) := p.playout.controller.prePop p.log.buffer.depth p.log.buffer.isStarted
  let p := { p with playout := { p.playout with controller := controller } }
  if ¬ go then ((false, fun _ => 0), p)
  else if p.playout.driftEnabled then p.tickResampled decode out
  else p.tickStepped decode

/-! ## Runs -/

/-- A frame that arrives: what `push` gets besides the number, and the jitter estimate with it. -/
def arrive (p : Playback n σ) (seq : UInt16) (timestamp : UInt32) (payload : Bytes) (jitterUs : ℚ) :
    Playback n σ :=
  let log := p.log.push seq timestamp payload
  { p with log := { log with buffer := log.buffer.publishJitterUs jitterUs } }

end Playback

/-- What happens to a stream: frames arrive, and the audio callback plays. -/
inductive PlaybackEvent (n : Nat) where
  | arrive (seq : UInt16) (timestamp : UInt32) (payload : Bytes) (jitterUs : ℚ)
  | tick (out : Samples n)

namespace Playback

def next (p : Playback n σ) : PlaybackEvent n → Playback n σ
  | .arrive seq timestamp payload jitterUs => p.arrive seq timestamp payload jitterUs
  | .tick out => (p.tick decode out).2

def run (p : Playback n σ) (es : List (PlaybackEvent n)) : Playback n σ := es.foldl (next decode) p

end Playback

/-- What happens to a stream and its playout, resets from outside included. -/
inductive StreamEvent (n : Nat) where
  | play (e : PlaybackEvent n)
  /-- The slot came alive, or the client joined. -/
  | resetStream
  /-- The stream is given to another sender. -/
  | resetBuffer

namespace Playback

def meet (p : Playback n σ) : StreamEvent n → Playback n σ
  | .play e => p.next decode e
  | .resetStream => { p with playout := p.playout.resetStream }
  | .resetBuffer => { p with log := p.log.step .reset }

def course (p : Playback n σ) (es : List (StreamEvent n)) : Playback n σ := es.foldl (meet decode) p

end Playback

/-- A frame of a stream that starts again, and the buffer that the next tick is given. -/
structure StreamFrame (n : Nat) where
  timestamp : UInt32
  payload : Bytes
  jitterUs : ℚ
  out : Samples n

namespace Playback

/-- The stream starts again at `s`: before each tick, its next frame arrives. -/
def resume (p : Playback n σ) (s : UInt16) (frames : Nat → StreamFrame n) : Nat → Playback n σ
  | 0 => p
  | k + 1 =>
    let f := frames k
    let p := (p.resume s frames k).arrive (s + UInt16.ofNat k) f.timestamp f.payload f.jitterUs
    (p.tick decode f.out).2

/-- What the tick after the frame of round `k` returns. -/
def heardAt (p : Playback n σ) (s : UInt16) (frames : Nat → StreamFrame n) (k : Nat) :
    Bool × Samples n :=
  let f := frames k
  let p := (p.resume decode s frames k).arrive (s + UInt16.ofNat k) f.timestamp f.payload f.jitterUs
  (p.tick decode f.out).1

/-- What a decoder makes of the first `k` frames, and its state after them. -/
def decoded (decoder : σ) (frames : Nat → StreamFrame n) : Nat → Samples n × σ
  | 0 => (fun _ => 0, decoder)
  | k + 1 =>
    let (pcm, state) := decoded decoder frames k
    let (_, pcm, state) := decode state (some (frames k).payload) pcm
    (pcm, state)

/-- A playout with a fixed depth and no drift correction, for a stream that starts at `s`. -/
def fixed (decoder : σ) (sampleRate depth : Nat) : Playback n σ :=
  new decoder sampleRate (some depth) false

/-- Round `k` of a stream in fixed-depth mode is as it should be: silent up to `depth`, and then the
frames in order, with the read position at the next one and nothing concealed or corrected. -/
structure LossFree (decoder : σ) (sampleRate depth : Nat) (s : UInt16) (frames : Nat → StreamFrame n)
    (k : Nat) : Prop where
  heard : (fixed decoder sampleRate depth).heardAt decode s frames k =
    if k + 1 < depth then (false, fun _ => 0)
    else (true, (decoded decode decoder frames (k + 2 - depth)).1)
  position : ((fixed decoder sampleRate depth).resume decode s frames (k + 1)).log.buffer.nextSeq =
    s + UInt16.ofNat (k + 2 - depth)
  concealed :
    ((fixed decoder sampleRate depth).resume decode s frames (k + 1)).log.buffer.stats.concealed = 0
  resets : ((fixed decoder sampleRate depth).resume decode s frames (k + 1)).log.buffer.stats.resets = 0
  insertPending :
    ((fixed decoder sampleRate depth).resume decode s frames (k + 1)).playout.insertPending = false

/-- A frame that was stored after the first `count` ones has been played. -/
def hasPlayed (p : Playback n σ) (count : Nat) : Bool := p.played.any fun k => count ≤ k

/-- How many ticks a stream that starts again is given. -/
def recoveryTicks (p : Playback n σ) : Nat :=
  (ringSlots + 2) * p.playout.controller.resetAfterMisses

/-- Nothing keeps the playout from noticing a stream that starts again at `s`: it is primed and counts
misses, or nothing was pushed yet, or the buffer it waits for is deep enough, or the first frame is late
by less than `late`. In the last two cases neither the newest number nor `s` may be exactly half the ring
ahead, where the depth turns negative. -/
def Admits (p : Playback n σ) (s : UInt16) (late : Int) : Prop :=
  p.playout.controller.primed = true ∨ p.log.buffer.started = false ∨
    (p.log.buffer.newestSeq - p.log.buffer.nextSeq ≠ 32768 ∧ s - p.log.buffer.nextSeq ≠ 32768 ∧
      (p.playout.controller.target ≤ p.log.buffer.depth ∨ diff p.log.buffer.nextSeq s < late))

end Playback

end OnlineJam
