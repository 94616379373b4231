import OnlineJam.Audio.Jitter
import Mathlib.Data.Rat.Floor

/-!
# Adaptive playout policy

The controller at the end of `jam-audio`, `jitter.rs`: when a stream starts to play, how deep its buffer
should be, and when it counts as interrupted.
-/

namespace OnlineJam

/-- What the audio callback does about the depth of the buffer. -/
inductive Adjust where
  | none
  /-- Drop one frame. -/
  | dropOne
  /-- Play one concealed frame without consuming. -/
  | insertOne
  deriving DecidableEq, Repr

structure PlayoutController where
  frameUs : ℚ
  minFrames : Int
  maxFrames : Int
  k : ℚ
  target : Int
  evalIntervalFrames : Nat
  framesSinceEval : Nat
  primed : Bool
  consecutiveMisses : Nat
  /-- After this many consecutive concealed frames the stream is considered interrupted and the buffer
  re-primes from scratch. -/
  resetAfterMisses : Nat
  pending : Adjust
  deadband : Int
  deriving DecidableEq, Repr

namespace PlayoutController

def new (frameSamples sampleRate : Nat) : PlayoutController :=
  let frameUs : ℚ := frameSamples * 1000000 / sampleRate
  { frameUs := frameUs, minFrames := 2, maxFrames := 20, k := 3, target := 2
    evalIntervalFrames := ⌊2000000 / frameUs⌋₊
    framesSinceEval := 0, primed := false, consecutiveMisses := 0
    resetAfterMisses := ⌊500000 / frameUs⌋₊
    pending := .none, deadband := 1 }

/-- Fixed-depth mode. -/
def setFixed (c : PlayoutController) (frames : Int) : PlayoutController :=
  { c with minFrames := frames, maxFrames := frames, target := frames }

def setDeadband (c : PlayoutController) (frames : Int) : PlayoutController :=
  { c with deadband := max frames 1 }

/-- Called once per frame tick before popping; returns false while the buffer is priming. -/
def prePop (c : PlayoutController) (depth : Int) (started : Bool) : Bool × PlayoutController :=
  if ¬ c.primed then
    if started ∧ c.target ≤ depth then (true, { c with primed := true, consecutiveMisses := 0 })
    else (false, c)
  else (true, c)

/-- The second half of `post_pop`: the target is evaluated again from time to time. -/
def evaluate (c : PlayoutController) (jitterUs : ℚ) : PlayoutController :=
  let c := { c with framesSinceEval := c.framesSinceEval + 1 }
  if c.evalIntervalFrames ≤ c.framesSinceEval then
    let jitterFrames : Int := ⌈c.k * jitterUs / c.frameUs⌉
    { c with
      framesSinceEval := 0
      target := max c.minFrames (min (c.minFrames + jitterFrames) c.maxFrames) }
  else c

/-- Called after popping, with whether the pop hit and the fresh jitter estimate. Returns true if the
stream should be reset. -/
def postPop (c : PlayoutController) (hit : Bool) (jitterUs : ℚ) : Bool × PlayoutController :=
  if hit then (false, { c with consecutiveMisses := 0 }.evaluate jitterUs)
  else
    let c := { c with consecutiveMisses := c.consecutiveMisses + 1 }
    if c.resetAfterMisses ≤ c.consecutiveMisses then
      (true, { c with primed := false, consecutiveMisses := 0, pending := .none })
    else (false, c.evaluate jitterUs)

/-- Latches a pending one-frame correction when the depth leaves the deadband. -/
def observeDepth (c : PlayoutController) (depth : Int) : PlayoutController :=
  if c.pending ≠ .none ∨ ¬ c.primed then c
  else if c.target + c.deadband < depth then { c with pending := .dropOne }
  else if depth < c.target - c.deadband then { c with pending := .insertOne }
  else c

/-- Returns and clears the pending correction. -/
def takeAdjustment (c : PlayoutController) : Adjust × PlayoutController :=
  (c.pending, { c with pending := .none })

/-- Forget priming and pending state. -/
def reset (c : PlayoutController) : PlayoutController :=
  { c with primed := false, consecutiveMisses := 0, pending := .none, framesSinceEval := 0 }

end PlayoutController

end OnlineJam
