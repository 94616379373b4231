import OnlineJam.Audio.Accum
import OnlineJam.Lib.Cursor
import OnlineJam.Lib.Machine

/-!
# The sample FIFO with every access checked

`SampleFifo` of `jam-audio`, `accum.rs`, with nothing promised about its fields. `none` stands for a
panic: a slice out of range, a copy between different lengths, a subtraction below zero, a division by
zero.
-/

namespace OnlineJam

open OnlineJam.Lib

structure RawFifo where
  buf : List ℚ
  head : Nat
  len : Nat
  deriving DecidableEq, Repr

namespace RawFifo

def new (capacity : Nat) : RawFifo := { buf := List.replicate capacity 0, head := 0, len := 0 }

/-- The two copies of `push` into the buffer, from `tail` on and then from its beginning. -/
def copyIn (buf : List ℚ) (tail : Nat) (samples : List ℚ) : Option (List ℚ) := do
  let first := min (← checkedSub buf.length tail) samples.length
  let buf ← copyAt buf tail (← slice samples 0 first)
  let rest ← checkedSub samples.length first
  if 0 < rest then copyAt buf 0 (← slice samples first samples.length) else pure buf

/-- Drops the oldest samples to make room. -/
def dropOldest (f : RawFifo) (overflow : Nat) : Option RawFifo :=
  if 0 < overflow then do
    let head ← checkedMod (f.head + overflow) f.buf.length
    let len ← checkedSub f.len overflow
    pure { f with head := head, len := len }
  else pure f

/-- Appends samples, dropping the oldest ones on overflow; returns how many were dropped. -/
def push (f : RawFifo) (samples : List ℚ) : Option (Nat × RawFifo) :=
  let cap := f.buf.length
  if cap ≤ samples.length then do
    -- The incoming block alone fills the FIFO.
    let dropped ← checkedSub (f.len + samples.length) cap
    let start ← checkedSub samples.length cap
    let buf ← copyFrom f.buf (← slice samples start samples.length)
    pure (dropped, { buf := buf, head := 0, len := cap })
  else do
    let overflow := f.len + samples.length - cap
    let f ← f.dropOldest overflow
    let tail ← checkedMod (f.head + f.len) cap
    let buf ← copyIn f.buf tail samples
    pure (overflow, { f with buf := buf, len := f.len + samples.length })

/-- The two copies of `pop` out of the buffer, from `head` on and then from its beginning. -/
def copyOut (buf : List ℚ) (head : Nat) (out : List ℚ) : Option (List ℚ) := do
  let first := min (← checkedSub buf.length head) out.length
  let filled ← copyAt out 0 (← slice buf head (head + first))
  let rest ← checkedSub out.length first
  if 0 < rest then copyAt filled first (← slice buf 0 rest) else pure filled

/-- Pops exactly `out.length` samples into `out` if available; returns `false` otherwise. -/
def pop (f : RawFifo) (out : List ℚ) : Option ((Bool × List ℚ) × RawFifo) :=
  if f.len < out.length then some ((false, out), f)
  else do
    let filled ← copyOut f.buf f.head out
    let head ← checkedMod (f.head + out.length) f.buf.length
    let len ← checkedSub f.len out.length
    pure ((true, filled), { f with head := head, len := len })

/-- What is stored, the oldest sample first. -/
def stored (f : RawFifo) : List ℚ :=
  (List.range f.len).map fun k => f.buf.getD ((f.head + k) % f.buf.length) 0

end RawFifo

/-! ## Calls -/

inductive FifoCall where
  | push (samples : List ℚ)
  /-- Pops into a buffer that holds `out`. -/
  | pop (out : List ℚ)
  deriving DecidableEq, Repr

inductive FifoReply where
  | pushed (dropped : Nat)
  /-- Whether it succeeded, and what the buffer holds now. -/
  | popped (ok : Bool) (out : List ℚ)
  deriving DecidableEq, Repr

def RawFifo.exec (f : RawFifo) : FifoCall → Option (FifoReply × RawFifo)
  | .push samples => (f.push samples).map fun (dropped, f) => (.pushed dropped, f)
  | .pop out => (f.pop out).map fun ((ok, out), f) => (.popped ok out, f)

/-- The same call on the bounded queue. -/
def SampleFifo.exec (f : SampleFifo) : FifoCall → FifoReply × SampleFifo
  | .push samples =>
    let (dropped, f) := f.push samples
    (.pushed dropped, f)
  | .pop out =>
    let (popped, f) := f.pop out.length
    (.popped popped.isSome (popped.getD out), f)

end OnlineJam
