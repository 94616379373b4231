import OnlineJam.Core.Client
import OnlineJam.Core.Host

/-!
# A session over the network

One host process, one client process and the datagrams between them. A datagram that was sent can
arrive at any later time, any number of times, in any order, or never. Everybody else on the network,
further clients included, shows only in the datagrams that reach the host from other addresses.
-/

namespace OnlineJam

structure Envelope where
  src : SocketAddr
  dst : SocketAddr
  bytes : Bytes
  deriving DecidableEq, Repr

structure SessionConfig where
  host : HostConfig
  client : ClientConfig
  clientAddr : SocketAddr
  /-- The two processes have a socket each. -/
  distinct : client.hostAddr ≠ clientAddr
  /-- The client's clock when it reads it first and when it begins the handshake. -/
  startMs : Nat
  helloMs : Nat

/-- The address the client was given is the host's. -/
def SessionConfig.hostAddr (cfg : SessionConfig) : SocketAddr := cfg.client.hostAddr

structure Session where
  host : Host
  client : Client
  /-- All datagrams sent by the two, in the order of sending. -/
  net : List Envelope

inductive SessionLabel where
  | host (l : HostLabel)
  /-- The `i`-th datagram reaches the host. -/
  | hostRecv (i nowUs t3Us : Nat)
  /-- A datagram of somebody else reaches the host. -/
  | strangerRecv (src : SocketAddr) (bytes : Bytes) (nowUs t3Us : Nat)
  | client (l : ClientLabel)
  /-- The `i`-th datagram reaches the client. -/
  | clientRecv (i nowUs t3Us : Nat)
  deriving DecidableEq, Repr

namespace Session

def init (cfg : SessionConfig) : Session :=
  { host := Host.new cfg.host, client := Client.new cfg.client cfg.startMs cfg.helloMs,
    net := [] }

/-- The network after a process at `src` may have sent something. -/
def post (s : Session) (src : SocketAddr) (out : Option Outgoing) : List Envelope :=
  s.net ++ (out.map fun o => { src := src, dst := o.dst, bytes := o.bytes }).toList

def hostMoved (cfg : SessionConfig) (s : Session) (r : Host × Option Outgoing) : Session :=
  { s with host := r.1, net := s.post cfg.hostAddr r.2 }

def clientMoved (cfg : SessionConfig) (s : Session) (r : Client × Option Outgoing) : Session :=
  { s with client := r.1, net := s.post cfg.clientAddr r.2 }

/-- The `i`-th datagram, if it is addressed to `dst`. -/
def arriving (s : Session) (dst : SocketAddr) (i : Nat) : Option Envelope :=
  s.net[i]?.filter fun e => e.dst = dst

def step (cfg : SessionConfig) (s : Session) : SessionLabel → Option Session
  | .host l => (s.host.step l).map (s.hostMoved cfg)
  | .hostRecv i nowUs t3Us => do
    let e ← s.arriving cfg.hostAddr i
    (s.host.receive e.src e.bytes nowUs t3Us).map (s.hostMoved cfg)
  | .strangerRecv src bytes nowUs t3Us =>
    if src = cfg.hostAddr ∨ src = cfg.clientAddr then none
    else (s.host.receive src bytes nowUs t3Us).map (s.hostMoved cfg)
  | .client l => (s.client.step l).map (s.clientMoved cfg)
  | .clientRecv i nowUs t3Us => do
    let e ← s.arriving cfg.clientAddr i
    (s.client.receive e.src e.bytes nowUs t3Us).map (s.clientMoved cfg)

end Session

end OnlineJam
