import OnlineJam.Audio.Mixer

/-!
# Rate matching

The drift-corrected resampler of `jam-audio`, `resample.rs`, and the sample FIFO of `accum.rs`, in exact
arithmetic.
-/

namespace OnlineJam

/-! ## Resampler -/

/-- Variable-ratio fractional resampler. -/
structure HermiteResampler where
  /-- The last four input samples, the newest last. -/
  h : ℚ × ℚ × ℚ × ℚ
  /-- Read position between the second and the third of them. -/
  phase : ℚ
  /-- Output rate over input rate. -/
  ratio : ℚ
  primed : Nat
  deriving DecidableEq, Repr

namespace HermiteResampler

def new : HermiteResampler := { h := (0, 0, 0, 0), phase := 0, ratio := 1, primed := 0 }

def setRatio (r : HermiteResampler) (ratio : ℚ) : HermiteResampler :=
  { r with ratio := max (98 / 100) (min ratio (102 / 100)) }

def interpolate (r : HermiteResampler) (t : ℚ) : ℚ :=
  let (y0, y1, y2, y3) := r.h
  let c0 := y1
  let c1 := 1 / 2 * (y2 - y0)
  let c2 := y0 - 5 / 2 * y1 + 2 * y2 - 1 / 2 * y3
  let c3 := 1 / 2 * (y3 - y0) + 3 / 2 * (y1 - y2)
  ((c3 * t + c2) * t + c1) * t + c0

/-- Input samples consumed per output sample. -/
def step (r : HermiteResampler) : ℚ := 1 / r.ratio

/-- The loop over one interval: a sample for every phase below 1. Two rounds are enough, since a step is
more than one half. -/
def emit (r : HermiteResampler) : Nat → List ℚ × HermiteResampler
  | 0 => ([], r)
  | fuel + 1 =>
    if r.phase < 1 then
      let (out, r') := emit { r with phase := r.phase + r.step } fuel
      (r.interpolate r.phase :: out, r')
    else ([], r)

/-- One input sample. -/
def feed (r : HermiteResampler) (x : ℚ) : List ℚ × HermiteResampler :=
  let (_, h1, h2, h3) := r.h
  let r := { r with h := (h1, h2, h3, x) }
  if r.primed < 3 then ([], { r with primed := r.primed + 1 })
  else
    let (out, r) := r.emit 2
    (out, { r with phase := r.phase - 1 })

/-- All output samples for some input. -/
def feedAll (r : HermiteResampler) : List ℚ → List ℚ × HermiteResampler
  | [] => ([], r)
  | x :: xs =>
    let (out, r) := r.feed x
    let (outs, r) := r.feedAll xs
    (out ++ outs, r)

/-- Feeds `input`; what does not fit into the output buffer is lost. -/
def process (r : HermiteResampler) (input : List ℚ) (outLen : Nat) : List ℚ × HermiteResampler :=
  let (out, r) := r.feedAll input
  (out.take outLen, r)

end HermiteResampler

/-! ## Controller -/

/-- PI controller from the depth error of the jitter buffer to a resample ratio near 1. -/
structure DriftController where
  kp : ℚ
  ki : ℚ
  integral : ℚ
  currentPpm : ℚ
  slewPpm : ℚ
  maxPpm : ℚ
  deriving DecidableEq, Repr

namespace DriftController

def new : DriftController :=
  { kp := 450, ki := 1 / 20, integral := 0, currentPpm := 0, slewPpm := 1 / 2, maxPpm := 500 }

/-- `clamp` to a symmetric range. -/
def clamp (bound x : ℚ) : ℚ := max (-bound) (min x bound)

def update (d : DriftController) (depthError : ℚ) : ℚ × DriftController :=
  let integral := clamp d.maxPpm (d.integral + depthError * d.ki)
  let wantPpm := clamp d.maxPpm (-(depthError * d.kp + integral))
  let delta := clamp d.slewPpm (wantPpm - d.currentPpm)
  let currentPpm := d.currentPpm + delta
  (1 + currentPpm / 1000000, { d with integral := integral, currentPpm := currentPpm })

end DriftController

/-! ## Sample FIFO -/

structure SampleFifo where
  capacity : Nat
  samples : List ℚ
  deriving DecidableEq, Repr

namespace SampleFifo

def new (capacity : Nat) : SampleFifo := { capacity := capacity, samples := [] }

def len (f : SampleFifo) : Nat := f.samples.length

/-- Appends samples, dropping the oldest ones on overflow; returns how many were dropped. -/
def push (f : SampleFifo) (samples : List ℚ) : Nat × SampleFifo :=
  let all := f.samples ++ samples
  let dropped := all.length - f.capacity
  (dropped, { f with samples := all.drop dropped })

/-- Pops exactly `n` samples, or none. -/
def pop (f : SampleFifo) (n : Nat) : Option (List ℚ) × SampleFifo :=
  if f.len < n then (none, f)
  else (some (f.samples.take n), { f with samples := f.samples.drop n })

end SampleFifo

end OnlineJam
