import OnlineJam.Core.HostRun

/-!
# What the host puts on the network

An observer at the host's socket: the datagrams that come from one address and go to it, and what the
transmit thread does with the datagrams of the audio callback.
-/

namespace OnlineJam

open OnlineJam.Lib
open HostHandshake (senderId)

/-- The datagram that this event makes the host send. -/
def Host.emits (h : Host) : HostEvent → Option Outgoing
  | .step l => (h.step l).bind Prod.snd
  | .recv src bytes nowUs t3Us => (h.receive src bytes nowUs t3Us).bind Prod.snd
  | _ => none

/-! ## One address -/

/-- The datagrams exchanged with one address. -/
structure Traffic where
  received : List Bytes
  sent : List Bytes

namespace Traffic

def new : Traffic := { received := [], sent := [] }

def observe (a : SocketAddr) (g : Traffic) (h : Host) (e : HostEvent) (_ : Host) : Traffic where
  received := match e with
    | .recv src bytes _ _ => if src = a then g.received ++ [bytes] else g.received
    | _ => g.received
  sent := g.sent ++ ((h.emits e).filter fun o => o.dst = a).toList.map Outgoing.bytes

end Traffic

/-- The bytes of some datagrams. -/
def volume (datagrams : List Bytes) : Nat := (datagrams.map List.length).sum

/-- No datagram of `a` is a HELLO with the protocol version and the room code of the host. -/
def HostEvent.Uninvited (cfg : HostConfig) (a : SocketAddr) : HostEvent → Prop
  | .recv src bytes _ _ => src = a → ∀ header name codecMask frameMask,
    parseDatagram (bytes.take maxDatagram) ≠
      some (.ok (header, .control (.hello protocolVersion cfg.roomCode name codecMask frameMask)))
  | _ => True

/-- The runs of a host from its start, each of whose steps meets a condition, with the traffic of `a`. -/
abbrev Host.Exchanges (cfg : HostConfig) (a : SocketAddr) (c : Host × Traffic → HostEvent → Prop) :
    List HostEvent → Host × Traffic → Prop :=
  Steps (watch Host.next (Traffic.observe a)) c (Host.new cfg, Traffic.new)

/-- An observed run on given events. -/
theorem Host.Exchanges.of_test (cfg : HostConfig) (a : SocketAddr) (es : List HostEvent)
    (test : Host × Traffic → HostEvent → Bool) (p : Host × Traffic → Bool)
    {c : Host × Traffic → HostEvent → Prop} (hc : ∀ w e, test w e = true → c w e)
    (h : (exec (guarded (watch Host.next (Traffic.observe a)) test) (Host.new cfg, Traffic.new)
      es).any p = true) : ∃ w, Host.Exchanges cfg a c es w ∧ p w = true := Steps.of_test hc h

/-! ## The transmit thread -/

/-- A datagram of the audio callback, as the transmit thread deals with it. -/
structure Transmission where
  item : TxItem
  /-- Where it went, if anywhere. -/
  dst : Option SocketAddr
  /-- Who had been announced for its slot last and not taken back. -/
  occupant : Option SocketAddr
  /-- How many address updates were on their way to the transmit thread. -/
  behind : Nat

structure TransmitLog where
  /-- What the ring had room for. -/
  accepted : List TxItem
  transmitted : List Transmission
  /-- Everybody who was ever announced for a slot. -/
  members : Fin maxClients → List SocketAddr
  occupant : Fin maxClients → Option SocketAddr

namespace TransmitLog

def new : TransmitLog :=
  { accepted := [], transmitted := [], members := fun _ => [], occupant := fun _ => none }

/-- The occupant of the slot that an item is for. -/
def occupantFor (g : TransmitLog) (item : TxItem) : Option SocketAddr :=
  if h : item.dest.toNat < maxClients then g.occupant ⟨item.dest.toNat, h⟩ else none

def observe (g : TransmitLog) (h : Host) (e : HostEvent) (h' : Host) : TransmitLog where
  accepted := match e with
    | .step (.audio _) => g.accepted ++ h'.txRing.drop h.txRing.length
    | _ => g.accepted
  transmitted := match e, h.txPhase, h.txRing with
    | .step .tx, .send, item :: _ =>
      g.transmitted ++ [⟨item, h.tx.resolve item, g.occupantFor item, h.txUpdates.length⟩]
    | _, _, _ => g.transmitted
  members k :=
    if h.joinsAt e k then g.members k ++ (h.hs.clientAddr (senderId k)).toList else g.members k
  occupant k :=
    if h.joinsAt e k then h.hs.clientAddr (senderId k)
    else if h.leavesAt e k then none
    else g.occupant k

end TransmitLog

/-- The runs of a host from its start, each of whose steps meets a condition, with such a log. -/
abbrev Host.Transmits (cfg : HostConfig) (c : Host × TransmitLog → HostEvent → Prop) :
    List HostEvent → Host × TransmitLog → Prop :=
  Steps (watch Host.next TransmitLog.observe) c (Host.new cfg, TransmitLog.new)

/-- An observed run on given events. -/
theorem Host.Transmits.of_test (cfg : HostConfig) (es : List HostEvent)
    (test : Host × TransmitLog → HostEvent → Bool) (p : Host × TransmitLog → Bool)
    {c : Host × TransmitLog → HostEvent → Prop} (hc : ∀ w e, test w e = true → c w e)
    (h : (exec (guarded (watch Host.next TransmitLog.observe) test) (Host.new cfg, TransmitLog.new)
      es).any p = true) : ∃ w, Host.Transmits cfg c es w ∧ p w = true := Steps.of_test hc h

end OnlineJam
