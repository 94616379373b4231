import OnlineJam.Audio.Jitter
import OnlineJam.Audio.Mixer
import Mathlib.Data.Rat.Floor

/-!
# Codec

`AudioEncoder::encode` and `AudioDecoder::decode` of `jam-audio`, `codec.rs`. 16-bit PCM, which keeps no
state, is spelled out; libopus is outside the model.
-/

namespace OnlineJam

/-- The two for frames of `n` samples. An encoder may fail; a decoder gets the buffer it decodes into and
tells whether it succeeded. -/
structure AudioCodec (n : Nat) (ε σ : Type) where
  encode : ε → Samples n → Option Bytes × ε
  decode : σ → Option Bytes → Samples n → Bool × Samples n × σ

/-! ## 16-bit PCM -/

/-- A float cast to an integer loses its fraction. -/
def truncate (x : ℚ) : Int := if 0 ≤ x then ⌊x⌋ else ⌈x⌉

/-- `x.clamp(-1.0, 1.0)`. -/
def clampSample (x : ℚ) : ℚ := max (-1) (min x 1)

/-- `(x.clamp(-1.0, 1.0) * i16::MAX as f32) as i16`. -/
def quantizeS16 (x : ℚ) : Int16 := Int16.ofInt (truncate (clampSample x * 32767))

/-- The little-endian bytes of a sample. -/
def bytesS16 (v : Int16) : Bytes := [v.toUInt16.toUInt8, (v.toUInt16 >>> 8).toUInt8]

/-- Encodes one frame; fails if it does not fit into the buffers of the pipelines. -/
def encodePcmS16 {n : Nat} (state : Unit) (pcm : Samples n) : Option Bytes × Unit :=
  if maxFrameBytes < n * 2 then (none, state)
  else (some ((List.ofFn pcm).flatMap fun x => bytesS16 (quantizeS16 x)), state)

/-- A little-endian sample, scaled to `[-1, 1]`. -/
def sampleS16 (lo hi : UInt8) : ℚ := (UInt16.ofNat (lo.toNat + hi.toNat * 256)).toInt16.toInt / 32767

/-- Decodes one frame into `pcm`; without a payload it is silence. Returns whether it succeeded. -/
def decodePcmS16 {n : Nat} (state : Unit) (payload : Option Bytes) (pcm : Samples n) :
    Bool × Samples n × Unit :=
  match payload with
  | none => (true, fun _ => 0, state)
  | some payload =>
    if payload.length ≠ n * 2 then (false, pcm, state)
    else (true, fun i => sampleS16 (payload.getD (2 * i) 0) (payload.getD (2 * i + 1) 0), state)

def pcmS16 {n : Nat} : AudioCodec n Unit Unit := { encode := encodePcmS16, decode := decodePcmS16 }

end OnlineJam
