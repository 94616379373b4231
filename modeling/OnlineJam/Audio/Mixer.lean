import Mathlib.Algebra.Field.Rat
import Mathlib.Algebra.Order.Field.Basic
import Mathlib.Algebra.Order.Ring.Rat

/-!
# Gain smoothing, mixing and soft clipping

`jam-audio`, `mixer.rs`, in exact arithmetic. A frame is the slice of `n` samples that one tick of the
audio callback works on.
-/

namespace OnlineJam

/-- The samples of one frame. -/
abbrev Samples (n : Nat) := Fin n → ℚ

/-- Moves toward a target once a frame. -/
structure SmoothedGain where
  current : ℚ
  /-- The smoothing coefficient, a constant of the frame length and the sample rate. -/
  alpha : ℚ
  deriving DecidableEq, Repr

namespace SmoothedGain

def new (initial alpha : ℚ) : SmoothedGain := { current := initial, alpha := alpha }

/-- Advances one frame toward `target` and returns the gain to apply. -/
def next (g : SmoothedGain) (target : ℚ) : ℚ × SmoothedGain :=
  let current := g.current + (target - g.current) * g.alpha
  let current := if |current - target| < 1 / 10000 then target else current
  (current, { g with current := current })

end SmoothedGain

variable {n : Nat}

/-- Adds `src` times `gain`. -/
def mixScaled (dst src : Samples n) (gain : ℚ) : Samples n := fun i => dst i + src i * gain

/-- Takes `src` times `gain` away again. -/
def unmixScaled (dst src : Samples n) (gain : ℚ) : Samples n := fun i => dst i - src i * gain

/-- Cubic soft clipper. -/
def softClip (x : ℚ) : ℚ :=
  if 1 ≤ x then 2 / 3 else if x ≤ -1 then -2 / 3 else x - x * x * x / 3

def softClipBuf (buf : Samples n) : Samples n := fun i => softClip (buf i)

/-- The square of `frame_rms`. -/
def frameMeanSquare (buf : Samples n) : ℚ :=
  if n = 0 then 0 else ((List.finRange n).map fun i => buf i * buf i).sum / n

/-- RMS below this is considered a quiet moment. -/
def lowEnergyRms : ℚ := 3 / 1000

/-- `frame_rms(buf) < LOW_ENERGY_RMS`, with both sides squared. -/
def isQuiet (buf : Samples n) : Bool := frameMeanSquare buf < lowEnergyRms * lowEnergyRms

end OnlineJam
