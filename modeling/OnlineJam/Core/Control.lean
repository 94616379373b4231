import OnlineJam.Core.Net

/-!
# Control plane

What the control loops of both roles share (`jam-core`, `control.rs`): stamping and serializing a
control packet, and the round-trip estimate. The loops themselves are in `Host` and `Client`.
-/

namespace OnlineJam

abbrev pingIntervalMs : Nat := 1000

/-- A datagram handed to the socket. -/
structure Outgoing where
  dst : SocketAddr
  bytes : Bytes
  deriving DecidableEq, Repr

/-- The bytes `ControlIo::send` puts on the wire. The buffer is reused from call to call there, which
does not show: what is sent has all been written. -/
@[irreducible] def stampedDatagram (seq : UInt16) (control : Control) (sessionId senderId : UInt16) : Bytes :=
  let header : Header :=
    { ptype := control.packetType, sessionId := sessionId, senderId := senderId, seq := seq }
  match control.write header (List.replicate maxDatagram 0) with
  | some (buf, n) => buf.take n
  | none => []

/-- Folds a new sample into the smoothed estimate: a fifth of its weight, in exact arithmetic and
saturating as the cast to `u32`. -/
def updateRtt (old sampleUs : Nat) : Nat :=
  min (if old = 0 then sampleUs else (4 * old + sampleUs) / 5) (2 ^ 32 - 1)

/-- The round trip without the time spent at the responder; subtractions stop at zero. -/
def rttFromPong (rxUs : Nat) (t1Us t2Us t3Us : UInt64) : Nat :=
  (rxUs - t1Us.toNat) - (t3Us.toNat - t2Us.toNat)

end OnlineJam
