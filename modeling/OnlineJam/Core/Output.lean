import OnlineJam.Audio.Accum
import OnlineJam.Core.Playout

/-!
# Device output

The callback of `build_output` of `jam-core`, `engine.rs`: it asks `process` for frames until it has enough
samples for the block of the device, and fans each sample out to all channels. What `process` computes,
and how a sample looks in the format of the device, are parameters. The callback reads neither the frames
it has got so far nor how many samples were dropped.
-/

namespace OnlineJam

structure OutputStream (n : Nat) (σ : Type) where
  pending : SampleRing
  frameBuf : Samples n
  processor : σ
  /-- The frames returned by `process` so far. -/
  frames : List (Samples n)
  /-- How many samples `pending` dropped so far. -/
  dropped : Nat

namespace OutputStream

variable {n : Nat} {σ τ : Type}

/-- Room for any realistic callback of the device. -/
abbrev pendingCapacity (n : Nat) : Nat := n * 16 + 65536

def new (n : Nat) (processor : σ) : OutputStream n σ :=
  { pending := SampleRing.new (pendingCapacity n) (Nat.succ_pos _)
    frameBuf := fun _ => 0
    processor := processor
    frames := []
    dropped := 0 }

/-- The loop that fills `pending`, for at most `fuel` rounds. -/
def fillPending (process : σ → Samples n → Samples n × σ) (needed : Nat) :
    Nat → OutputStream n σ → OutputStream n σ
  | 0, o => o
  | fuel + 1, o =>
    if o.pending.len < needed then
      let (frame, processor) := process o.processor o.frameBuf
      let (dropped, pending) := o.pending.push (List.ofFn frame)
      fillPending process needed fuel
        { pending := pending
          frameBuf := frame
          processor := processor
          frames := o.frames ++ [frame]
          dropped := o.dropped + dropped }
    else o

/-- One sample for all channels, from `base` on. -/
def fanOut (channels base : Nat) (v : τ) (data : List τ) : List τ :=
  (List.range channels).foldl (fun data ch => data.set (base + ch) v) data

/-- Pops `take` samples into the front of the frame buffer. -/
def popInto (o : OutputStream n σ) (take : Nat) : OutputStream n σ :=
  let (popped, pending) := o.pending.pop take
  { o with
    pending := pending
    frameBuf := match popped with
      | some samples => fun i => if i < take then samples.getD i 0 else o.frameBuf i
      | none => o.frameBuf }

/-- The loop that drains `pending` in pieces of at most a frame, for at most `fuel` rounds. -/
def drain (fromSample : ℚ → τ) (channels needed : Nat) :
    Nat → Nat → OutputStream n σ × List τ → OutputStream n σ × List τ
  | 0, _, r => r
  | fuel + 1, written, (o, data) =>
    if written < needed then
      let take := min (needed - written) n
      let o := o.popInto take
      let data := ((List.ofFn o.frameBuf).take take).zipIdx.foldl
        (fun data (s, k) => fanOut channels ((written + k) * channels) (fromSample s) data) data
      drain fromSample channels needed fuel (written + take) (o, data)
    else (o, data)

/-- One callback of the device, with the block it hands over. -/
def callback (process : σ → Samples n → Samples n × σ) (fromSample : ℚ → τ) (channels : Nat)
    (o : OutputStream n σ) (data : List τ) : OutputStream n σ × List τ :=
  let needed := data.length / channels
  drain fromSample channels needed needed 0 (o.fillPending process needed needed, data)

/-- Callbacks in turn: the blocks as they were written. -/
def callbacks (process : σ → Samples n → Samples n × σ) (fromSample : ℚ → τ) (channels : Nat)
    (o : OutputStream n σ) : List (List τ) → OutputStream n σ × List (List τ)
  | [] => (o, [])
  | data :: blocks =>
    let (o, data) := o.callback process fromSample channels data
    let (o, written) := o.callbacks process fromSample channels blocks
    (o, data :: written)

/-- What a block has for one channel. -/
def channelOf (channels ch : Nat) (data : List τ) : List τ :=
  (List.range (data.length / channels)).filterMap fun k => data[k * channels + ch]?

end OutputStream

end OnlineJam
