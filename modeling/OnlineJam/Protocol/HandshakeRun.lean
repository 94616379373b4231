import OnlineJam.Protocol.Handshake

/-!
# Histories of the host's handshake machine

The machine is driven by calls in any order and with any arguments. What it returns is kept, so that
what a client was told last, and whether its slot was announced, can be read off.
-/

namespace OnlineJam

/-- A call of one of the operations of `HostHandshake`. -/
inductive HostOp where
  | onHello (addr : SocketAddr) (hello : Control) (nowMs : Nat)
  | welcomeSent (dst : SocketAddr) (seq : UInt16)
  | onAck (addr : SocketAddr) (ackedSeq : UInt16) (nowMs : Nat)
  | markHeard (senderId : UInt16) (nowMs : Nat)
  | onBye (addr : SocketAddr)
  | tick (nowMs : Nat)
  deriving DecidableEq, Repr

def HostOp.exec (hs : HostHandshake) : HostOp → List HostAction × HostHandshake
  | onHello addr hello nowMs => hs.onHello addr hello nowMs
  | welcomeSent dst seq => ([], hs.welcomeSent dst seq)
  | onAck addr ackedSeq nowMs => hs.onAck addr ackedSeq nowMs
  | markHeard senderId nowMs => ([], hs.markHeard senderId nowMs)
  | onBye addr => hs.onBye addr
  | tick nowMs => hs.tick nowMs

/-- The machine and all the actions it has returned. -/
structure HostHistory where
  hs : HostHandshake
  emitted : List HostAction

namespace HostHistory

def apply (r : HostHistory) (op : HostOp) : HostHistory :=
  { hs := (op.exec r.hs).2, emitted := r.emitted ++ (op.exec r.hs).1 }

/-- The history of some calls on a given machine. -/
def run (hs : HostHandshake) (ops : List HostOp) : HostHistory :=
  ops.foldl apply { hs := hs, emitted := [] }

end HostHistory

/-- The roster this action tells `a`. -/
def HostAction.tells (a : SocketAddr) : HostAction → Option (List PlayerInfo)
  | .send dst (.welcome _ _ _ _ _ roster) => if dst = a then some roster else none
  | .send dst (.roster players) => if dst = a then some players else none
  | _ => none

/-- The roster `a` was told last. -/
def lastTold (actions : List HostAction) (a : SocketAddr) : Option (List PlayerInfo) :=
  (actions.filterMap (HostAction.tells a)).getLast?

/-- Everybody with a slot was last told the current roster. -/
def HostHistory.Informed (r : HostHistory) : Prop :=
  ∀ i s, r.hs.slots i = some s → lastTold r.emitted s.addr = some r.hs.roster

/-- Whether this action announces the player with this id (`true`) or takes it back. -/
def HostAction.announces (id : UInt16) : HostAction → Option Bool
  | .clientJoined sender _ => if sender = id then some true else none
  | .clientLeft sender _ => if sender = id then some false else none
  | .send .. => none

/-- The announcements of one id, in order. -/
def announcements (actions : List HostAction) (id : UInt16) : List Bool :=
  actions.filterMap (HostAction.announces id)

namespace HostHandshake

/-- The slot with this id is occupied. -/
def occupied (hs : HostHandshake) (id : UInt16) : Bool := ((slotOfSender id).bind hs.slots).isSome

/-- A HELLO from the holder of a slot, that would be admitted and gives another name than it has, while
somebody else has a slot too. -/
def Renames (hs : HostHandshake) : HostOp → Prop
  | .onHello addr hello _ => ∃ i s name codecMask frameMask, hs.slots i = some s ∧ s.addr = addr ∧
      hello = .hello protocolVersion hs.roomCode name codecMask frameMask ∧ name ≠ s.name ∧
      ∃ j, j ≠ i ∧ (hs.slots j).isSome = true
  | _ => False

end HostHandshake

end OnlineJam
