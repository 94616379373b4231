import OnlineJam.Core.Session
import OnlineJam.Lib.Run

/-!
# What an observer of a session writes down

Neither process knows which datagram it holds in its hands, when that was sent or what the other side
looked like then. An observer of the whole session does, and the properties of runs are stated in terms
of its log. The log has no influence on the run.
-/

namespace OnlineJam

open OnlineJam.Lib
open HostHandshake (senderId slotOfSender)

/-- About a datagram, at the moment it was sent. -/
structure Note where
  /-- Number of control packets the host had stamped before. -/
  stamp : Nat
  /-- The host held a slot for the destination. -/
  held : Bool
  /-- The host's transmit thread had not taken in every change of the slots. -/
  behind : Bool
  /-- How often the host had taken the client's slot away. -/
  removals : Nat
  deriving DecidableEq, Repr

structure SessionLog where
  /-- By position in `Session.net`. -/
  note : Nat → Note
  /-- Number of control packets the host has stamped. -/
  stamped : Nat
  /-- How often the host has taken the client's slot away. -/
  removals : Nat
  /-- The datagram that last refreshed the client's `lastRxUs`. -/
  refreshedBy : Option Nat
  /-- The datagrams behind the events in the client's channel. -/
  queue : List Nat
  /-- The datagram behind the event the client's control loop took last, if it took one. -/
  inHand : Option Nat
  /-- The WELCOME with which the client's handshake machine was Joined last. -/
  accepted : Option Nat
  /-- The ROSTERs the client has taken since it last started audio, and whether it has each one's
  players as its roster afterwards. -/
  rosters : List (Nat × Bool)
  /-- The client's handshake machine has been Joined with the slot's id at some moment since the
  host last executed `ClientJoined` for the slot. -/
  joinedIn : Fin maxClients → Bool
  /-- One more than the position of the datagram that arrived at the client last. -/
  delivered : Nat

/-- The host has a slot for this address. -/
def Host.holds (h : Host) (addr : SocketAddr) : Bool := (h.hs.senderForAddr addr).isSome

/-- This task tells the receive and the transmit thread about a slot. -/
def HostTask.changesSlot : HostTask → Bool
  | .act (.clientJoined ..) => true
  | .act (.clientLeft ..) => true
  | _ => false

/-- A change of a slot is on its way to the transmit thread or still to be sent. -/
def Host.txBehind (h : Host) : Bool := ! h.txUpdates.isEmpty || h.tasks.any HostTask.changesSlot

/-- The handshake machine is Joined. -/
def ClientHandshake.isJoined (cs : ClientHandshake) : Bool :=
  match cs.phase with
  | .joined .. => true
  | _ => false

/-- The handshake machine is Joined with this id. -/
def ClientHandshake.isJoinedAs (cs : ClientHandshake) (sender : UInt16) : Bool :=
  match cs.phase with
  | .joined id _ _ => id = sender
  | _ => false

/-- The arrival of this datagram sets `lastRxUs`, whatever the clock reads. -/
def Client.refreshes (c : Client) (e : Envelope) : Bool :=
  let nowUs := c.shared.fromHost.lastRxUs + 1
  (c.receive e.src e.bytes nowUs nowUs).any fun r => r.1.shared.fromHost.lastRxUs = nowUs

/-- This step executes `ClientJoined` for slot `k`. -/
def Host.joins (h : Host) (l : HostLabel) (k : Fin maxClients) : Bool :=
  match l, h.tasks with
  | .control _, .act (.clientJoined sender _) :: _ => slotOfSender sender = some k
  | _, _ => false

namespace SessionLog

def new : SessionLog :=
  { note := fun _ => { stamp := 0, held := false, behind := false, removals := 0 }, stamped := 0
    removals := 0, refreshedBy := none, queue := [], inHand := none, accepted := none, rosters := []
    joinedIn := fun _ => false, delivered := 0 }

/-- What is noted about a datagram that is sent now. -/
def about (g : SessionLog) (s : Session) (e : Envelope) : Note :=
  { stamp := g.stamped, held := s.host.holds e.dst, behind := s.host.txBehind, removals := g.removals }

/-- The log after a step from `s` to `t` with label `l`. -/
def observe (cfg : SessionConfig) (g : SessionLog) (s : Session) (l : SessionLabel) (t : Session) :
    SessionLog where
  note := match t.net[s.net.length]? with
    | some e => Function.update g.note s.net.length (g.about s e)
    | none => g.note
  stamped := if t.host.seq = s.host.seq then g.stamped else g.stamped + 1
  removals :=
    if s.host.holds cfg.clientAddr ∧ ¬ t.host.holds cfg.clientAddr then g.removals + 1
    else g.removals
  refreshedBy := match l with
    | .clientRecv i _ _ => if s.net[i]?.any s.client.refreshes then some i else g.refreshedBy
    | _ => g.refreshedBy
  queue := match l with
    | .clientRecv i _ _ =>
      if t.client.events.length = s.client.events.length then g.queue else g.queue ++ [i]
    | .client (.wake _) => g.queue.tail
    | _ => g.queue
  inHand := match l with
    | .client (.wake _) => g.queue.head?
    | _ => g.inHand
  accepted :=
    if ¬ s.client.cs.isJoined ∧ t.client.cs.isJoined then g.inHand else g.accepted
  rosters := match l with
    | .client (.wake _) =>
      match s.client.events.map CtrlEvent.control, g.queue with
      | .roster players :: _, i :: _ => g.rosters ++ [(i, decide (t.client.roster = players))]
      | _, _ => g.rosters
    | .client (.control _) =>
      match s.client.tasks with
      | .act (.startAudio ..) :: _ => []
      | _ => g.rosters
    | _ => g.rosters
  joinedIn k :=
    (match l with
      | .host l => if s.host.joins l k then false else g.joinedIn k
      | _ => g.joinedIn k) || t.client.cs.isJoinedAs (senderId k)
  delivered := match l with
    | .clientRecv i _ _ => i + 1
    | _ => g.delivered

end SessionLog

/-- A session and its log. -/
abbrev Watched := Session × SessionLog

/-- The runs of a session from its start, each of whose steps meets a condition. -/
abbrev Session.Runs (cfg : SessionConfig) (c : Watched → SessionLabel → Prop) :
    List SessionLabel → Watched → Prop :=
  Steps (watch (Session.step cfg) (SessionLog.observe cfg)) c (Session.init cfg, SessionLog.new)

/-- No datagram of anybody but the two processes. -/
def SessionLabel.closed : SessionLabel → Bool
  | .strangerRecv .. => false
  | _ => true

/-- A run on given labels. -/
theorem Session.Runs.of_test (cfg : SessionConfig) (ls : List SessionLabel)
    (test : Watched → SessionLabel → Bool) (p : Watched → Bool) {c : Watched → SessionLabel → Prop}
    (hc : ∀ w l, test w l = true → c w l)
    (h : (exec (guarded (watch (Session.step cfg) (SessionLog.observe cfg)) test)
      (Session.init cfg, SessionLog.new) ls).any p = true) :
    ∃ w, Session.Runs cfg c ls w ∧ p w = true := Steps.of_test hc h

end OnlineJam
