import OnlineJam.Core.ClientRun
import OnlineJam.Core.HostRun
import OnlineJam.Core.SessionLog

/-!
# A concrete session

The processes and the shorthands for the runs on fixed inputs.
-/

namespace OnlineJam.Scenario

def hostAddr : SocketAddr := .v4 0x0A000001 9000
def clientAddr : SocketAddr := .v4 0x0A000002 40000
def strangerAddr : SocketAddr := .v4 0x0A000003 40000

/-- `JAMJAM`. -/
def roomCode : Vector UInt8 roomCodeLen := #v[74, 65, 77, 74, 65, 77]

def params : EngineParams :=
  { sampleRate := 48000, frameSamples := 120, codec := .pcmS16, redundancy := false }

/-- A host and a client that belong together. -/
def cfg : SessionConfig :=
  { host := { roomCode := roomCode, hostName := "host", params := params, sessionId := 7 }
    client := { roomCode := roomCode, name := "ann", params := params, hostAddr := hostAddr }
    clientAddr := clientAddr, distinct := by decide, startMs := 1, helloMs := 1 }

/-- The HELLO of another client with the given room code. -/
def strangerHello (code : Vector UInt8 roomCodeLen) : Bytes :=
  stampedDatagram 0 (.hello protocolVersion code "bob" 0b111 0b011) 0 unjoinedSenderId

/-- `n` steps of the host's control loop. -/
def host (n : Nat) (nowUs : Nat) : List SessionLabel :=
  List.replicate n (.host (.control nowUs))

/-- `n` steps of the host's receive loop. -/
def rx (n : Nat) : List SessionLabel := List.replicate n (.host .rx)

/-- `n` steps of the client's control loop. -/
def client (n : Nat) (nowUs : Nat) : List SessionLabel :=
  List.replicate n (.client (.control nowUs))

/-- The client says HELLO, the host answers: the WELCOME for slot 0 is the second datagram. -/
def hello : List SessionLabel :=
  client 2 1000 ++ host 1 1000 ++ rx 2 ++ [.hostRecv 0 9000 9000, .host (.wake 10)] ++ host 10 10000

/-- The client takes the WELCOME: it acknowledges, is Joined, starts audio and has its first roster. -/
def join (nowMs : Nat) : List SessionLabel :=
  [.clientRecv 1 (nowMs * 1000) (nowMs * 1000), .client (.wake nowMs)] ++ client 4 (nowMs * 1000)

/-! ## The host alone -/

/-- `n` steps of the control loop. -/
def control (n : Nat) (nowUs : Nat) : List HostEvent := List.replicate n (.step (.control nowUs))

/-- A datagram arrives; the receive loop goes on to the next `recv_from`. -/
def recv (src : SocketAddr) (bytes : Bytes) (nowUs : Nat) : List HostEvent :=
  .recv src bytes nowUs nowUs :: List.replicate 2 (.step .rx)

/-- Somebody joins; neither the receive nor the transmit thread has taken in the update. -/
def strangerJoins : List HostEvent :=
  control 1 0 ++ List.replicate 2 (.step .rx) ++ recv strangerAddr (strangerHello roomCode) 9000 ++
    [.step (.wake 10)] ++ control 2 10000

/-- The control loop waits for an event, takes it, executes `n` tasks and goes on to the next wait. -/
def handles (n : Nat) (nowMs : Nat) : List HostEvent :=
  .step (.wake nowMs) :: control (n + 8) (nowMs * 1000)

/-- A frame of the player in slot 0. -/
def audio (seq : UInt16) (payload : Bytes) : Bytes :=
  (writeAudioDatagram cfg.host.sessionId 1 seq 480 params payload none).getD []

/-- The HELLO of the client. -/
def clientHello : Bytes :=
  stampedDatagram 0 (.hello protocolVersion roomCode cfg.client.name 0b111 0b011) 0 unjoinedSenderId

/-- A stranger joins and gets slot 0, and the receive thread knows it. -/
def strangerIn : List HostEvent :=
  control 1 0 ++ List.replicate 2 (.step .rx) ++ recv strangerAddr (strangerHello roomCode) 9000 ++
    handles 2 10 ++ .step .rxTimeout :: List.replicate 3 (.step .rx)

/-- It leaves and the client gets the slot, while the receive thread waits for a datagram. -/
def clientInstead : List HostEvent :=
  recv strangerAddr (stampedDatagram 1 .bye cfg.host.sessionId 1) 15000 ++
    recv clientAddr clientHello 16000 ++ handles 1 20 ++ handles 2 30

/-! ## The client alone -/

/-- `n` steps of the control loop. -/
def turns (n nowMs : Nat) : List ClientEvent := List.replicate n (.step (.control (nowMs * 1000)))

/-- A packet of the host arrives, the control loop takes it and goes on for `n` steps. -/
def takes (bytes : Bytes) (n nowMs : Nat) : List ClientEvent :=
  .recv hostAddr bytes (nowMs * 1000) (nowMs * 1000) :: .step (.wake nowMs) :: turns n nowMs

/-- The WELCOME of a host with this session id and frame size. -/
def welcome (sessionId frameSamples : UInt16) : Bytes :=
  stampedDatagram 0 (.welcome 1 sessionId params.sampleRate frameSamples params.codec []) sessionId
    hostSenderId

/-- The client joins session 7, whose host uses this frame size, and begins to rejoin when that goes
quiet. -/
def quiet (frameSamples : UInt16) : List ClientEvent :=
  turns 2 1 ++ takes (welcome 7 frameSamples) 8 20 ++ .step (.wake 9000) :: turns 6 9000

end OnlineJam.Scenario
