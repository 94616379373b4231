import OnlineJam.Audio.Jitter
import OnlineJam.Protocol.Handshake

/-!
# State shared between the threads

The atomics of `jam-core`, `lib.rs`, that the control, receive and audio threads of one process share.
Times are readings of the process's session clock. Level meters and monitor gains are left out.
-/

namespace OnlineJam

/-- Runtime configuration shared by host and client roles. -/
structure EngineParams where
  sampleRate : UInt32
  frameSamples : Nat
  codec : Codec
  /-- Attach the previous frame to every packet. -/
  redundancy : Bool
  deriving DecidableEq, Repr

/-- One remote audio stream. -/
structure StreamShared where
  active : Bool
  jb : JitterBuffer
  /-- Last time anything arrived from this peer; 0 is never. -/
  lastRxUs : Nat
  /-- Smoothed round-trip time to this peer. -/
  rttUs : Nat

def StreamShared.new : StreamShared :=
  { active := false, jb := JitterBuffer.new, lastRxUs := 0, rttUs := 0 }

/-- Host-role shared state. Players are indexed with 0 for the host. -/
structure HostShared where
  sessionId : UInt16
  clients : Fin maxClients → StreamShared
  gains : Fin (maxClients + 1) → ℚ
  muted : Fin (maxClients + 1) → Bool
  soloed : Fin (maxClients + 1) → Bool
  shutdown : Bool

namespace HostShared

def new (sessionId : UInt16) : HostShared :=
  { sessionId := sessionId, clients := fun _ => StreamShared.new, gains := fun _ => 1,
    muted := fun _ => false, soloed := fun _ => false, shutdown := false }

/-- Replaces one stream. -/
def setClient (shared : HostShared) (slot : Fin maxClients) (stream : StreamShared) : HostShared :=
  { shared with clients := Function.update shared.clients slot stream }

end HostShared

/-- Client-role shared state. -/
structure ClientShared where
  /-- True once WELCOME has been processed; gates the audio path. -/
  joined : Bool
  senderId : UInt16
  sessionId : UInt16
  /-- The mix stream coming back from the host. -/
  fromHost : StreamShared
  shutdown : Bool

def ClientShared.new : ClientShared :=
  { joined := false, senderId := unjoinedSenderId, sessionId := 0, fromHost := StreamShared.new,
    shutdown := false }

end OnlineJam
