import OnlineJam.Core.Output
import OnlineJam.Lib.Run

/-!
# Capture

The way of the local input in `jam-core`, `engine.rs`: the input callback of `build_input` puts the first
channel of its device into a ring, and the closure of `start_host_audio` and `start_client_audio` takes
frames out of it. The two callbacks run on threads of their own; a step is one push, or one operation of
the closure on the ring. The record of what happened is not read by either of them.
-/

namespace OnlineJam

open OnlineJam.Lib

structure CaptureConfig where
  sampleRate : Nat
  /-- The block size asked of the devices. -/
  hwBuffer : Nat

namespace CaptureConfig

/-- Room for a quarter of a second. -/
def ringSize (cfg : CaptureConfig) : Nat := cfg.sampleRate / 4

/-- The backlog from which on samples are dropped, for frames of `n` samples. -/
def driftCap (cfg : CaptureConfig) (n : Nat) : Nat := max (n * 4) (cfg.hwBuffer * 2)

end CaptureConfig

/-- Where the closure is. -/
inductive CapturePhase where
  /-- Dropping the oldest samples. -/
  | trim
  /-- About to look whether there is a frame. -/
  | check
  /-- Popping sample `k` of the frame. -/
  | fill (k : Nat)
  /-- About to process the frame, which was captured or is silence. -/
  | process (captured : Bool)
  deriving DecidableEq, Repr

structure Capture (n : Nat) where
  ring : List ℚ
  localIn : Samples n
  /-- `capture_starved`. -/
  starved : Nat
  phase : CapturePhase
  /-- What the input device delivered so far. -/
  captured : List ℚ
  /-- How many samples found the ring full. -/
  refused : Nat
  /-- What left the ring so far, and whether it went into a frame. -/
  taken : List (ℚ × Bool)
  /-- The frames processed so far, and whether they were captured. -/
  frames : List (Samples n × Bool)
  /-- How much the ring took since the closure stopped dropping samples. -/
  fresh : Nat

inductive CaptureEvent where
  /-- The input callback pushes a sample. -/
  | push (x : ℚ)
  /-- The closure goes on. -/
  | poll
  deriving DecidableEq

namespace Capture

variable {n : Nat} {σ τ : Type}

def new (n : Nat) : Capture n :=
  { ring := [], localIn := fun _ => 0, starved := 0, phase := .trim, captured := [], refused := 0
    taken := [], frames := [], fresh := 0 }

/-- A sample that the ring has no room for is dropped. -/
def push (cfg : CaptureConfig) (c : Capture n) (x : ℚ) : Capture n :=
  if c.ring.length < cfg.ringSize then
    { c with ring := c.ring ++ [x], captured := c.captured ++ [x], fresh := c.fresh + 1 }
  else { c with captured := c.captured ++ [x], refused := c.refused + 1 }

/-- The closure's next operation on the ring. -/
def poll (cfg : CaptureConfig) (c : Capture n) : Capture n :=
  match c.phase with
  | .trim =>
    if cfg.driftCap n < c.ring.length then
      match c.ring with
      | x :: ring => { c with ring := ring, taken := c.taken ++ [(x, false)] }
      | [] => c
    else { c with phase := .check, fresh := 0 }
  | .check =>
    if n ≤ c.ring.length then { c with phase := .fill 0 }
    else { c with localIn := fun _ => 0, starved := c.starved + 1, phase := .process false }
  | .fill k =>
    if k < n then
      match c.ring with
      | x :: ring =>
        { c with
          ring := ring, phase := .fill (k + 1), taken := c.taken ++ [(x, true)]
          localIn := fun i => if i.val = k then x else c.localIn i }
      | [] =>
        { c with phase := .fill (k + 1), localIn := fun i => if i.val = k then 0 else c.localIn i }
    else { c with phase := .process true }
  | .process captured => { c with phase := .trim, frames := c.frames ++ [(c.localIn, captured)] }

def next (cfg : CaptureConfig) (c : Capture n) : CaptureEvent → Option (Capture n)
  | .push x => some (c.push cfg x)
  | .poll => some (c.poll cfg)

/-- The runs from the start, each of whose steps meets a condition. -/
abbrev Runs (cfg : CaptureConfig) (n : Nat) (c : Capture n → CaptureEvent → Prop) :
    List CaptureEvent → Capture n → Prop :=
  Steps (next cfg) c (Capture.new n)

/-- A run on given operations. -/
theorem Runs.of_test (cfg : CaptureConfig) (n : Nat) (es : List CaptureEvent)
    (test : Capture n → CaptureEvent → Bool) (p : Capture n → Bool) {c : Capture n → CaptureEvent → Prop}
    (hc : ∀ d e, test d e = true → c d e)
    (h : (exec (guarded (next cfg) test) (Capture.new n) es).any p = true) :
    ∃ d, Runs cfg n c es d ∧ p d = true := Steps.of_test hc h

/-- What of the frame that is being put together was captured. -/
def inProgress (c : Capture n) : List ℚ :=
  match c.phase with
  | .fill k => (List.ofFn c.localIn).take k
  | .process true => List.ofFn c.localIn
  | _ => []

/-- What the pipeline got to hear. -/
def heard (c : Capture n) : List ℚ := (c.frames.filter Prod.snd).flatMap fun f => List.ofFn f.1

/-- The input device is at most `lead` samples ahead of the frames processed so far, and at most `lag`
samples behind them when a frame is looked for. -/
def KeepsPace (lag lead : Nat) (c : Capture n) : CaptureEvent → Prop
  | .push _ => c.captured.length < n * c.frames.length + lead
  | .poll => c.phase = .check → n * c.frames.length ≤ c.captured.length + lag

/-! ## The callbacks of the two devices, one after the other -/

/-- The input callback, with the block of the device. -/
def inputCallback (cfg : CaptureConfig) (toSample : τ → ℚ) (channels : Nat) (c : Capture n)
    (data : List τ) : Capture n :=
  ((OutputStream.channelOf channels 0 data).map toSample).foldl (push cfg) c

/-- The closure up to the next frame it has processed, for at most `fuel` operations. -/
def work (cfg : CaptureConfig) : Nat → Capture n → Capture n
  | 0, c => c
  | fuel + 1, c =>
    match c.phase with
    | .process _ => c.poll cfg
    | _ => work cfg fuel (c.poll cfg)

/-- The closure; what the pipeline makes of a frame is a parameter. -/
def process (cfg : CaptureConfig) (pipeline : σ → Samples n → Samples n → Samples n × σ)
    (s : Capture n × σ) (out : Samples n) : Samples n × Capture n × σ :=
  let c := s.1.work cfg (s.1.ring.length + n + 4)
  let (out, p) := pipeline s.2 c.localIn out
  (out, c, p)

end Capture

/-- A callback of one of the two devices. -/
inductive DeviceCallback (τ : Type) where
  | input (data : List τ)
  | output (data : List τ)

namespace Duplex

variable {n : Nat} {σ τ : Type}

/-- What the two devices of a session are and what its pipeline does. -/
structure Config (n : Nat) (σ τ : Type) where
  capture : CaptureConfig
  inputChannels : Nat
  outputChannels : Nat
  toSample : τ → ℚ
  fromSample : ℚ → τ
  pipeline : σ → Samples n → Samples n → Samples n × σ

def next (cfg : Config n σ τ) (o : OutputStream n (Capture n × σ)) :
    DeviceCallback τ → OutputStream n (Capture n × σ)
  | .input data =>
    { o with
      processor := (o.processor.1.inputCallback cfg.capture cfg.toSample cfg.inputChannels data,
        o.processor.2) }
  | .output data => (o.callback (Capture.process cfg.capture cfg.pipeline) cfg.fromSample
      cfg.outputChannels data).1

/-- The state after some callbacks, of a session whose pipeline starts in `p`. -/
def run (cfg : Config n σ τ) (p : σ) (callbacks : List (DeviceCallback τ)) :
    OutputStream n (Capture n × σ) :=
  callbacks.foldl (next cfg) (OutputStream.new n (Capture.new n, p))

/-- The samples that the input device delivers with a callback. -/
def delivered (cfg : Config n σ τ) : DeviceCallback τ → List ℚ
  | .input data => (OutputStream.channelOf cfg.inputChannels 0 data).map cfg.toSample
  | .output _ => []

/-- How many samples the output device asks for with a callback. -/
def demanded (cfg : Config n σ τ) : DeviceCallback τ → Nat
  | .input _ => 0
  | .output data => data.length / cfg.outputChannels

/-- At no time between two callbacks is the input device more than `lead` samples ahead of the output
device, or more than `lag` behind it. -/
def KeepsPace (cfg : Config n σ τ) (lag lead : Nat) (callbacks : List (DeviceCallback τ)) : Prop :=
  ∀ cs, cs <+: callbacks →
    (cs.flatMap (delivered cfg)).length ≤ (cs.map (demanded cfg)).sum + lead ∧
    (cs.map (demanded cfg)).sum ≤ (cs.flatMap (delivered cfg)).length + lag

end Duplex

end OnlineJam
