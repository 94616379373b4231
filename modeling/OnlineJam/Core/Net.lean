import OnlineJam.Core.Shared

/-!
# Receive and transmit threads

The routing of one datagram by the receive thread of either role (`jam-core`, `net.rs`), the
destinations of the transmit thread, and the address tables of both, which the control thread keeps up
to date through channels. Routing one datagram is one atomic step. The simulated loss of the transmit
thread is left out: the network loses datagrams anyway.
-/

namespace OnlineJam

/-- Address-table updates from the control thread. -/
inductive AddrUpdate where
  | client (slot : UInt8) (addr : Option SocketAddr)
  | peer (addr : SocketAddr)
  deriving DecidableEq, Repr

/-- A control packet routed to the control thread. -/
structure CtrlEvent where
  src : SocketAddr
  header : Header
  control : Control
  rxUs : Nat
  deriving DecidableEq, Repr

/-- What the thread was started with. -/
structure RxConfig where
  frameSamples : Nat
  sampleRate : UInt32

/-- The thread's own state. -/
structure RxState where
  /-- Authoritative slot addresses, mirrored from control. -/
  clientAddrs : Fin maxClients → Option SocketAddr
  jitters : Fin maxClients → ArrivalJitter

namespace RxState

def new : RxState :=
  { clientAddrs := fun _ => none, jitters := fun _ => ArrivalJitter.new }

/-- Applies one update from the control thread. -/
def update (rx : RxState) : AddrUpdate → RxState
  | .client slot addr =>
    if h : slot.toNat < maxClients then
      { clientAddrs := Function.update rx.clientAddrs ⟨slot.toNat, h⟩ addr
        jitters := Function.update rx.jitters ⟨slot.toNat, h⟩ ArrivalJitter.new }
    else rx
  | .peer _ => rx

end RxState

/-- One outgoing datagram, produced by the audio callback. -/
structure TxItem where
  dest : UInt8
  bytes : Bytes
  deriving DecidableEq, Repr

abbrev destPeer : UInt8 := 255

/-- Items the ring between the audio callback and the transmit thread has room for. -/
abbrev txRingSize : Nat := 256

/-- The transmit thread's own state. -/
structure TxState where
  clients : Fin maxClients → Option SocketAddr
  peer : Option SocketAddr

namespace TxState

def new : TxState := { clients := fun _ => none, peer := none }

/-- Applies one update from the control thread. -/
def update (tx : TxState) : AddrUpdate → TxState
  | .client slot addr =>
    if h : slot.toNat < maxClients then
      { tx with clients := Function.update tx.clients ⟨slot.toNat, h⟩ addr }
    else tx
  | .peer addr => { tx with peer := some addr }

/-- Where an item goes. -/
def resolve (tx : TxState) (item : TxItem) : Option SocketAddr :=
  if item.dest = destPeer then tx.peer
  else if h : item.dest.toNat < maxClients then tx.clients ⟨item.dest.toNat, h⟩
  else none

end TxState

/-- The sender's clock of a packet in microseconds, rounded down. -/
def mediaUs (cfg : RxConfig) (timestamp : UInt32) : Nat :=
  timestamp.toNat * 1000000 / cfg.sampleRate.toNat

/-- Puts an accepted audio packet into its stream: the payload, then the redundant copy. -/
def receiveAudio (cfg : RxConfig) (nowUs : Nat) (jitter : ArrivalJitter) (stream : StreamShared)
    (header : Header) (audio : AudioPacket) : ArrivalJitter × StreamShared :=
  let (j, jitter) := jitter.onArrival nowUs (mediaUs cfg audio.timestamp)
  let jb := stream.jb.publishJitterUs j
  let jb := (jb.push header.seq audio.timestamp audio.payload).2
  let jb := match audio.redundant with
    | some red =>
      (jb.push (header.seq - 1) (audio.timestamp - UInt32.ofNat cfg.frameSamples) red).2
    | none => jb
  (jitter, { stream with lastRxUs := nowUs, jb := jb })

/-- The answer to a PING; `t3Us` is read when it is sent. -/
def pongReply (header : Header) (senderId : UInt16) (t1Us : UInt64) (nowUs t3Us : Nat) :
    Option Bytes := do
  let pong : Control := .pong t1Us (UInt64.ofNat nowUs) (UInt64.ofNat t3Us)
  let replyHeader : Header :=
    { ptype := .pong, sessionId := header.sessionId, senderId := senderId, seq := header.seq }
  let (out, n) ← pong.write replyHeader (List.replicate 64 0)
  pure (out.take n)

/-- What routing one datagram leaves behind. -/
structure Routed (S : Type) where
  rx : RxState
  shared : S
  /-- Sent back to where the datagram came from. -/
  reply : Option Bytes
  /-- Sent to the control thread. -/
  event : Option CtrlEvent

/-- One datagram in the host role. -/
def routeHost (cfg : RxConfig) (nowUs t3Us : Nat) (rx : RxState) (shared : HostShared)
    (src : SocketAddr) (datagram : Bytes) : Routed HostShared :=
  let ignored : Routed HostShared := { rx := rx, shared := shared, reply := none, event := none }
  match parseDatagram (datagram.take maxDatagram) with
  | some (.ok (header, .control (.ping t1Us))) =>
    -- Stateless ping echo: no session or slot check.
    { ignored with reply := pongReply header hostSenderId t1Us nowUs t3Us }
  | some (.ok (header, .audio audio)) =>
    if header.sessionId ≠ shared.sessionId then ignored
    else
      match HostHandshake.slotOfSender header.senderId with
      | none => ignored
      | some slot =>
        -- Anti-spoof: source address must match the slot.
        if rx.clientAddrs slot ≠ some src then ignored
        else
          let (jitter, stream) :=
            receiveAudio cfg nowUs (rx.jitters slot) (shared.clients slot) header audio
          { ignored with
            rx := { rx with jitters := Function.update rx.jitters slot jitter }
            shared := shared.setClient slot stream }
  | some (.ok (header, .control control)) =>
    let shared := match HostHandshake.slotOfSender header.senderId with
      | some slot =>
        if rx.clientAddrs slot = some src then
          shared.setClient slot { shared.clients slot with lastRxUs := nowUs }
        else shared
      | none => shared
    { ignored with
      shared := shared
      event := some { src := src, header := header, control := control, rxUs := nowUs } }
  | _ => ignored

/-- One datagram in the client role. -/
def routeClient (cfg : RxConfig) (hostAddr : SocketAddr) (nowUs t3Us : Nat) (rx : RxState)
    (shared : ClientShared) (src : SocketAddr) (datagram : Bytes) : Routed ClientShared :=
  let ignored : Routed ClientShared := { rx := rx, shared := shared, reply := none, event := none }
  match parseDatagram (datagram.take maxDatagram) with
  | some (.ok (header, .control (.ping t1Us))) =>
    { ignored with reply := pongReply header shared.senderId t1Us nowUs t3Us }
  | some (.ok (header, .audio audio)) =>
    if src ≠ hostAddr ∨ header.senderId ≠ hostSenderId ∨ ¬ shared.joined ∨
        header.sessionId ≠ shared.sessionId then ignored
    else
      let (jitter, stream) := receiveAudio cfg nowUs (rx.jitters 0) shared.fromHost header audio
      { ignored with
        rx := { rx with jitters := Function.update rx.jitters 0 jitter }
        shared := { shared with fromHost := stream } }
  | some (.ok (header, .control control)) =>
    -- Only the host may talk control to us.
    if src ≠ hostAddr then ignored
    else
      { ignored with
        shared := { shared with fromHost := { shared.fromHost with lastRxUs := nowUs } }
        event := some { src := src, header := header, control := control, rxUs := nowUs } }
  | _ => ignored

end OnlineJam
