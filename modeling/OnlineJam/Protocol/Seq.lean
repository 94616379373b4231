import OnlineJam.Lib.Serial
import Mathlib.Algebra.GroupWithZero.Nat

/-!
# Sequence numbers

Wraparound-safe comparison of 16-bit sequence numbers and the generator that stamps outgoing
packets (`jam-protocol`, `seq.rs`), together with the protocol constants of the crate root.
-/

namespace OnlineJam

/-! ## Protocol constants -/

/-- First byte of every datagram. -/
def magic : UInt8 := 0xA5
def protocolVersion : UInt8 := 1
/-- Maximum number of connected clients; the host is player 0. -/
abbrev maxClients : Nat := 4
def hostSenderId : UInt16 := 0
/-- Sender id of a client the host has not assigned a slot yet. -/
def unjoinedSenderId : UInt16 := 0xFFFF
abbrev roomCodeLen : Nat := 6
abbrev maxNameLen : Nat := 32
/-- Size of every send and receive buffer. -/
abbrev maxDatagram : Nat := 2048
abbrev controlRetryMs : Nat := 100
abbrev controlMaxTries : Nat := 10
abbrev keepaliveMs : Nat := 500
abbrev peerTimeoutMs : Nat := 5000
abbrev rejoinWindowMs : Nat := 30000

instance : NeZero maxClients := ⟨by decide⟩

/-! ## Comparison on the ring -/

/-- True if `a` is strictly newer than `b`: `a.wrapping_sub(b) as i16 > 0`. -/
def newerThan (a b : UInt16) : Bool := 0 < (a - b).toInt16

/-- Signed distance from `b` to `a`: `a.wrapping_sub(b) as i16`. -/
def diff (a b : UInt16) : Int := (a - b).toInt16.toInt

/-- The sequence number of a position in an unbounded stream. -/
def lowSeq (p : Int) : UInt16 := ⟨Lib.serial 16 p⟩

/-! ## The generator -/

/-- Monotonic sequence generator for one sender: the number the next packet gets. -/
structure SeqGen where
  val : UInt16
  deriving DecidableEq, Repr

namespace SeqGen

def new : SeqGen := ⟨0⟩

/-- Returns the number to stamp, and the generator after it (`wrapping_add`). -/
def next (g : SeqGen) : UInt16 × SeqGen := (g.val, ⟨g.val + 1⟩)

def peek (g : SeqGen) : UInt16 := g.val

end SeqGen

end OnlineJam
