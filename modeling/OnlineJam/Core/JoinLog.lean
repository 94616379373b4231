import OnlineJam.Core.SessionLog

/-!
# What an acknowledged join rests on

For each slot, an observer writes down how many datagrams had been sent when the host executed
`ClientJoined` for it. With that one can say which datagrams of the client belong to this join, and what
the network and the client have to do so that they tell the host what it takes them for.
-/

namespace OnlineJam

open OnlineJam.Lib
open HostHandshake (senderId)

/-- What a datagram is to whoever parses it, if it is well formed. -/
def readDatagram (bytes : Bytes) : Option (Header × Payload) :=
  match parseDatagram (bytes.take maxDatagram) with
  | some (.ok parsed) => some parsed
  | _ => none

/-- The host waits for `addr` to acknowledge slot `k`. -/
def Host.awaits (h : Host) (addr : SocketAddr) (k : Fin maxClients) : Bool :=
  (h.hs.slots k).any fun s => s.addr = addr && s.state ≠ .active

/-- The datagram has the id of slot `k` and comes from where the receive thread expects that. -/
def Host.counts (h : Host) (src : SocketAddr) (bytes : Bytes) (k : Fin maxClients) : Bool :=
  h.rx.clientAddrs k = some src && (readDatagram bytes).any fun p => p.1.senderId = senderId k

/-- A HELLO begins a join and the BYE of this session ends one. The host takes no other packet from the
slot's address but for an acknowledgement. -/
def SessionConfig.overhears (cfg : SessionConfig) (header : Header) (control : Control) : Bool :=
  control.packetType = .hello ||
    control.packetType = .bye && header.sessionId = cfg.host.sessionId

def ClientHandshake.isJoining (cs : ClientHandshake) : Bool :=
  match cs.phase with
  | .joining .. => true
  | _ => false

/-- A WELCOME waits for the handshake machine. It is acknowledged before the machine has its turn. -/
def Client.welcomeInHand (c : Client) : Bool :=
  match c.phase with
  | .handshake (some control) => control.packetType = .welcome
  | _ => false

/-- The WELCOME that waits has this id for the client. -/
def Client.idInHand (c : Client) : Option UInt16 :=
  match c.phase with
  | .handshake (some (.welcome assignedId ..)) => some assignedId
  | _ => none

/-- A session, its log, and the position in `Session.net` that was the next one at the last `ClientJoined`
for each slot. -/
abbrev OpenedSession := Watched × (Fin maxClients → Nat)

namespace OpenedSession

def opened (g : Fin maxClients → Nat) (w : Watched) (l : SessionLabel) (_ : Watched) :
    Fin maxClients → Nat :=
  match l with
  | .host l => fun k => if w.1.host.joins l k then w.1.net.length else g k
  | _ => g

abbrev Runs (cfg : SessionConfig) (c : OpenedSession → SessionLabel → Prop) :
    List SessionLabel → OpenedSession → Prop :=
  Steps (watch (watch (Session.step cfg) (SessionLog.observe cfg)) opened) c
    ((Session.init cfg, SessionLog.new), fun _ => 0)

/-- The `i`-th datagram, which the client has sent, may reach a host that waits for it to acknowledge slot
`k`. `counted` tells whether the receive thread counts it for the slot. -/
def Belongs (cfg : SessionConfig) (w : OpenedSession) (k : Fin maxClients) (i : Nat) (counted : Bool) :
    Header × Payload → Prop
  | (header, .control control) =>
    match control with
    -- A client that joins again has the id of its last join in it.
    | .hello .. => counted = false
    | .ping .. => True
    | .pong .. => False
    | .ack .. => w.2 k ≤ i ∧ w.1.1.client.welcomeInHand = false
    | .bye => w.2 k ≤ i ∨ header.sessionId = cfg.host.sessionId ∧ counted = false
    | _ => w.2 k ≤ i
  | (_, .audio _) => w.2 k ≤ i ∨ counted = false

instance (cfg : SessionConfig) (w : OpenedSession) (k : Fin maxClients) (i : Nat) (counted : Bool) :
    ∀ p, Decidable (Belongs cfg w k i counted p)
  | (_, .control (.hello ..)) => inferInstanceAs (Decidable (counted = false))
  | (_, .control (.ping ..)) => inferInstanceAs (Decidable True)
  | (_, .control (.pong ..)) => inferInstanceAs (Decidable False)
  | (_, .control (.ack ..)) =>
    inferInstanceAs (Decidable (w.2 k ≤ i ∧ w.1.1.client.welcomeInHand = false))
  | (header, .control .bye) => inferInstanceAs
    (Decidable (w.2 k ≤ i ∨ header.sessionId = cfg.host.sessionId ∧ counted = false))
  | (_, .control (.welcome ..)) | (_, .control (.deny ..)) | (_, .control .keepalive)
  | (_, .control (.roster ..)) => inferInstanceAs (Decidable (w.2 k ≤ i))
  | (_, .audio _) => inferInstanceAs (Decidable (w.2 k ≤ i ∨ counted = false))

/-- What may happen while the host waits for the client to acknowledge slot `k` and the client is not Joined
with its id. -/
def Orderly (cfg : SessionConfig) (w : OpenedSession) (k : Fin maxClients) : SessionLabel → Prop
  | .host l => w.1.1.host.joins l k = true → w.1.1.client.cs.isJoined = false ∧
    ∀ ev ∈ w.1.1.host.events, ev.src = cfg.clientAddr → cfg.overhears ev.header ev.control = true
  | .hostRecv i _ _ => ∀ e ∈ w.1.1.net[i]?,
    if e.src = cfg.clientAddr then
      ∀ p ∈ readDatagram e.bytes, Belongs cfg w k i (w.1.1.host.counts e.src e.bytes k) p
    else w.1.1.host.counts e.src e.bytes k = false
  | .strangerRecv src bytes _ _ => w.1.1.host.counts src bytes k = false
  | .client (.control _) => w.1.1.client.tasks = [] → w.1.1.client.welcomeInHand = true →
    w.1.1.client.cs.isJoining = true ∧ (w.1.1.client.idInHand = some (senderId k) ∨
      ∀ i ∈ w.1.2.inHand, (w.1.2.note i).removals = w.1.2.removals)
  | _ => True

instance (cfg : SessionConfig) (w : OpenedSession) (k : Fin maxClients) :
    ∀ l, Decidable (Orderly cfg w k l)
  | .host l => inferInstanceAs (Decidable (w.1.1.host.joins l k = true → _ ∧ ∀ ev ∈ _, _ → _))
  | .hostRecv i _ _ => inferInstanceAs (Decidable (∀ e ∈ w.1.1.net[i]?, ite _ _ _))
  | .strangerRecv src bytes _ _ => inferInstanceAs (Decidable (w.1.1.host.counts src bytes k = false))
  | .client (.control _) =>
    inferInstanceAs (Decidable (w.1.1.client.tasks = [] → _ → _ ∧ (_ ∨ ∀ i ∈ w.1.2.inHand, _)))
  | .client (.wake _) | .client (.audio _) | .client .rxStop | .client .shutdown | .clientRecv .. =>
    inferInstanceAs (Decidable True)

/-- Between `ClientJoined` and the join of the client nothing says that it has joined: no PONG and no ACK
overtakes the join, nothing is left over from before, and the WELCOME is that of this join or has the same
id. -/
def JoinsOrderly (cfg : SessionConfig) (w : OpenedSession) (l : SessionLabel) : Prop :=
  ∀ k, w.1.1.host.awaits cfg.clientAddr k = true → w.1.1.client.cs.isJoinedAs (senderId k) = false →
    Orderly cfg w k l

instance (cfg : SessionConfig) (w : OpenedSession) (l : SessionLabel) :
    Decidable (JoinsOrderly cfg w l) :=
  inferInstanceAs (Decidable (∀ k, _ → _ → Orderly cfg w k l))

/-- A run on given labels. -/
theorem Runs.of_test (cfg : SessionConfig) (ls : List SessionLabel) (p : OpenedSession → Bool)
    (h : (exec (guarded (watch (watch (Session.step cfg) (SessionLog.observe cfg)) opened)
        fun w l => decide (JoinsOrderly cfg w l))
      ((Session.init cfg, SessionLog.new), fun _ => 0) ls).any p = true) :
    ∃ w, Runs cfg (JoinsOrderly cfg) ls w ∧ p w = true :=
  Steps.of_test (fun _ _ ht => of_decide_eq_true ht) h

end OpenedSession

end OnlineJam
