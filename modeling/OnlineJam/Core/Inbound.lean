import OnlineJam.Core.AudioPath
import OnlineJam.Core.Net

/-!
# An incoming stream from the socket to the speaker

The receive thread's jitter estimator, the stream it shares with the audio callback, and the playout
there: `spawn_rx` of `net.rs` and `StreamPlayout` of `playout.rs`, in `jam-core`.
-/

namespace OnlineJam

structure Inbound (n : Nat) (σ : Type) where
  /-- Owned by the receive thread. -/
  jitter : ArrivalJitter
  stream : StreamShared
  /-- Owned by the audio callback. -/
  playout : StreamPlayout n σ

inductive InboundEvent (n : Nat) where
  /-- An audio packet of the stream. -/
  | receive (nowUs : Nat) (header : Header) (audio : AudioPacket)
  /-- The receive thread learns that the stream has another sender. -/
  | newSender
  /-- The control thread gives the stream away. -/
  | resetBuffer
  /-- The audio callback finds the stream alive again. -/
  | resetStream
  | tick (out : Samples n)

namespace Inbound

variable {n : Nat} {ε σ : Type} (codec : AudioCodec n ε σ) (cfg : RxConfig)

def new (decoder : σ) (sampleRate : Nat) (jitterFixed : Option Int) (driftCorrection : Bool) :
    Inbound n σ :=
  { jitter := ArrivalJitter.new, stream := StreamShared.new
    playout := StreamPlayout.new decoder sampleRate jitterFixed driftCorrection }

def step (s : Inbound n σ) : InboundEvent n → Inbound n σ
  | .receive nowUs header audio =>
    let (jitter, stream) := receiveAudio cfg nowUs s.jitter s.stream header audio
    { s with jitter := jitter, stream := stream }
  | .newSender => { s with jitter := ArrivalJitter.new }
  | .resetBuffer => { s with stream := { s.stream with jb := s.stream.jb.reset, lastRxUs := 0, rttUs := 0 } }
  | .resetStream => { s with playout := s.playout.resetStream }
  | .tick out =>
    let (_, playout, jb) := s.playout.tick codec s.stream.jb out
    { s with playout := playout, stream := { s.stream with jb := jb } }

def run (s : Inbound n σ) (es : List (InboundEvent n)) : Inbound n σ := es.foldl (step codec cfg) s

/-- How long a packet was on its way, up to the offset between the two clocks. -/
def transit (nowUs : Nat) (audio : AudioPacket) : Int := nowUs - mediaUs cfg audio.timestamp

/-- Of two packets of one sender that arrive one after the other, the transit times differ by at most
`spreadUs`; `last` is that of the packet before, if there was one. -/
def Spread (spreadUs : Nat) : Option Int → List (InboundEvent n) → Prop
  | _, [] => True
  | last, .receive nowUs _ audio :: es =>
    (∀ t ∈ last, (transit cfg nowUs audio - t).natAbs ≤ spreadUs) ∧
      Spread spreadUs (some (transit cfg nowUs audio)) es
  | _, .newSender :: es => Spread spreadUs none es
  | last, .resetBuffer :: es => Spread spreadUs last es
  | last, .resetStream :: es => Spread spreadUs last es
  | last, .tick _ :: es => Spread spreadUs last es

instance decidableSpread (spreadUs : Nat) : (last : Option Int) → (es : List (InboundEvent n)) →
    Decidable (Spread cfg spreadUs last es)
  | _, [] => inferInstanceAs (Decidable True)
  | last, .receive nowUs _ audio :: es =>
    have := decidableSpread spreadUs (some (transit cfg nowUs audio)) es
    inferInstanceAs (Decidable ((∀ t ∈ last, (transit cfg nowUs audio - t).natAbs ≤ spreadUs) ∧
      Spread cfg spreadUs (some (transit cfg nowUs audio)) es))
  | _, .newSender :: es => decidableSpread spreadUs none es
  | last, .resetBuffer :: es => decidableSpread spreadUs last es
  | last, .resetStream :: es => decidableSpread spreadUs last es
  | last, .tick _ :: es => decidableSpread spreadUs last es

end Inbound

end OnlineJam
