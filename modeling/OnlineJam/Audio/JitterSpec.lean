import OnlineJam.Audio.Jitter
import Mathlib.Order.Bounds.Basic

/-!
# What the jitter buffer is for

A map from integer positions to frames, read off the history of operations: nothing here wraps
around and nothing is stored in a ring. `JitterBuffer` only ever sees the low 16 bits of a position.
-/

namespace OnlineJam

structure Frame where
  timestamp : UInt32
  payload : Bytes
  deriving DecidableEq, Repr

/-- One operation on the buffer, with the position a push is meant for. -/
inductive JitterOp where
  | push (pos : Int) (frame : Frame)
  | pop
  | skip

namespace JitterOp

def isRead : JitterOp → Bool
  | push .. => false
  | _ => true

/-- What the operation leaves of a buffer. -/
def exec (jb : JitterBuffer) : JitterOp → JitterBuffer
  | push pos frame => (jb.push (lowSeq pos) frame.timestamp frame.payload).2
  | pop => jb.popNext.2
  | skip => jb.skipNext.2

end JitterOp

/-- The buffer after a history of operations on a fresh one. -/
def runJitter (h : List JitterOp) : JitterBuffer := h.foldl JitterOp.exec JitterBuffer.new

/-- The read position: the first push fixes where it starts, every later pop or skip advances it by
one, and before the first push there is none. -/
def readPos : List JitterOp → Option Int
  | [] => none
  | .push pos _ :: h => some (pos + h.countP JitterOp.isRead)
  | _ :: h => readPos h

/-- The frame of the first push for `p`. -/
def firstFrame (h : List JitterOp) (p : Int) : Option Frame :=
  h.findSome? fun op => match op with
    | .push pos frame => if pos = p then some frame else none
    | _ => none

/-- Some push for `p` was not behind the read position when it was made. -/
def StoredAt (h : List JitterOp) (p : Int) : Prop :=
  ∃ h₁ frame h₂, h = h₁ ++ .push p frame :: h₂ ∧ ∀ next, readPos h₁ = some next → next ≤ p

/-- Payloads fit, and every push after the first is for one of the `ringSlots` positions from the
read position on, or for one that was passed at most 32767 steps ago. -/
def InWindow (h : List JitterOp) : Prop :=
  ∀ h₁ p frame h₂, h = h₁ ++ .push p frame :: h₂ → frame.payload.length ≤ maxFrameBytes ∧
    ∀ next, readPos h₁ = some next → next - 32767 ≤ p ∧ p ≤ next + 63

/-- The read position never gets more than 32704 past the newest stored position. -/
def NeverFarAhead (h : List JitterOp) : Prop :=
  ∀ h₁, h₁ <+: h → ∀ next newest, readPos h₁ = some next → IsGreatest {p | StoredAt h₁ p} newest →
    next ≤ newest + 32704

/-- A push is late when its position has been passed, a duplicate when a frame for it waits. -/
def specPush (h : List JitterOp) (p : Int) : PushOutcome :=
  match readPos h with
  | none => .stored
  | some next =>
    if p < next then .late
    else if (firstFrame h p).isSome then .duplicate
    else .stored

/-- A pop returns the first frame pushed for the read position. -/
def specPop (h : List JitterOp) : PopOutcome :=
  match (readPos h).bind (firstFrame h) with
  | some frame => .frame frame.payload frame.timestamp
  | none => .missing

/-- A skip tells whether there was a frame at the read position. -/
def specSkip (h : List JitterOp) : Bool := ((readPos h).bind (firstFrame h)).isSome

end OnlineJam
