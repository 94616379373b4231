import OnlineJam.Protocol.HandshakeRun

/-!
# Who was sent a WELCOME, and when

What a run of the host's machine shows of one client: the numbers on the WELCOMEs that went to it, when
each was sent, and when and why its slot was given up.
-/

namespace OnlineJam

/-- A HELLO of the right version with this room code. -/
def Control.greets (roomCode : Vector UInt8 roomCodeLen) : Control → Bool
  | .hello protoVersion code _ _ _ => protoVersion = protocolVersion && code = roomCode
  | _ => false

/-- A HELLO from `a` that the host accepts if it has room. -/
def HostOp.greets (roomCode : Vector UInt8 roomCodeLen) (a : SocketAddr) : HostOp → Bool
  | onHello addr hello _ => addr = a && hello.greets roomCode
  | _ => false

/-- The numbers on the WELCOMEs transmitted to `a` since its latest HELLO. The embedder reports each
right after it has sent it, so the reports are the transmissions. -/
def sinceHello (roomCode : Vector UInt8 roomCodeLen) (a : SocketAddr) (ops : List HostOp) : List UInt16 :=
  ops.foldl (fun sent op => match op with
    | .welcomeSent dst seq => if dst = a then sent ++ [seq] else sent
    | op => if op.greets roomCode a then [] else sent) []

/-- A WELCOME to `a`. -/
def HostAction.welcomes (a : SocketAddr) : HostAction → Bool
  | .send dst (.welcome ..) => dst = a
  | _ => false

/-- The slot of `a` is Active, and stays so without another WELCOME until the next HELLO of `a`. -/
structure HostHandshake.Activated (hs : HostHandshake) (a : SocketAddr) : Prop where
  active : ∃ k s, hs.slots k = some s ∧ s.addr = a ∧ s.state = .active
  stays : ∀ ops : List HostOp, (∀ op ∈ ops, op.greets hs.roomCode a = false) →
    ∀ k s, (HostHistory.run hs ops).hs.slots k = some s → s.addr = a → s.state = .active
  welcomed : ∀ ops : List HostOp, (∀ op ∈ ops, op.greets hs.roomCode a = false) →
    ∀ nowMs, ∀ act ∈ ((HostHistory.run hs ops).hs.tick nowMs).1, act.welcomes a = false
  acked : ∀ ops : List HostOp, (∀ op ∈ ops, op.greets hs.roomCode a = false) → ∀ nowMs k,
    (HostHistory.run hs ops).hs.clientAddr (HostHandshake.senderId k) = some a →
      .clientLeft (HostHandshake.senderId k) .welcomeUnacked ∉ ((HostHistory.run hs ops).hs.tick nowMs).1

/-- The clock reading a call comes with; 0 where it has none. -/
def HostOp.time : HostOp → Nat
  | onHello _ _ nowMs | onAck _ _ nowMs | markHeard _ nowMs | tick nowMs => nowMs
  | welcomeSent .. | onBye _ => 0

/-- The slot of `a`, as it is before the call, is given up. -/
def HostAction.leaves (a : SocketAddr) (hs : HostHandshake) : HostAction → Option LeaveReason
  | .clientLeft id reason => if hs.clientAddr id = some a then some reason else none
  | _ => none

namespace HostHandshake

/-- The times at which `a` was sent a WELCOME, one for each. -/
def welcomeTimes (a : SocketAddr) (hs : HostHandshake) : List HostOp → List Nat
  | [] => []
  | op :: ops => ((op.exec hs).1.filter (HostAction.welcomes a)).map (fun _ => op.time) ++
      welcomeTimes a (op.exec hs).2 ops

/-- When and why the slot of `a` was given up, for each time that it was. -/
def departures (a : SocketAddr) (hs : HostHandshake) : List HostOp → List (Nat × LeaveReason)
  | [] => []
  | op :: ops => ((op.exec hs).1.filterMap (HostAction.leaves a hs)).map (fun reason => (op.time, reason)) ++
      departures a (op.exec hs).2 ops

/-- The call was not caused by `a`. -/
def Silent (a : SocketAddr) (hs : HostHandshake) : HostOp → Prop
  | .onHello addr _ _ | .onAck addr _ _ | .onBye addr => addr ≠ a
  | .markHeard id _ => hs.clientAddr id ≠ some a
  | .welcomeSent .. | .tick _ => True

instance (a : SocketAddr) (hs : HostHandshake) : DecidablePred (hs.Silent a)
  | .onHello addr _ _ | .onAck addr _ _ | .onBye addr => inferInstanceAs (Decidable (addr ≠ a))
  | .markHeard id _ => inferInstanceAs (Decidable (hs.clientAddr id ≠ some a))
  | .welcomeSent .. | .tick _ => inferInstanceAs (Decidable True)

/-- None of the calls was caused by `a`. -/
def SilentRun (a : SocketAddr) (hs : HostHandshake) : List HostOp → Prop
  | [] => True
  | op :: ops => hs.Silent a op ∧ SilentRun a (op.exec hs).2 ops

instance decidableSilentRun (a : SocketAddr) : (hs : HostHandshake) → (ops : List HostOp) →
    Decidable (SilentRun a hs ops)
  | _, [] => inferInstanceAs (Decidable True)
  | hs, op :: ops =>
    have := decidableSilentRun a (op.exec hs).2 ops
    inferInstanceAs (Decidable (hs.Silent a op ∧ SilentRun a (op.exec hs).2 ops))

/-- Whether and why a tick gives up a client that said HELLO at `t₀` and was last heard then. -/
def due (t₀ : Nat) (sent : List Nat) (nowMs : Nat) : Option LeaveReason :=
  if t₀ + peerTimeoutMs < nowMs then some .timeout
  else if sent.length = controlMaxTries ∧ ∃ last ∈ sent.getLast?, last + controlRetryMs ≤ nowMs then
    some .welcomeUnacked
  else none

/-- No tick among the calls gives the client up. -/
def NoneDue (a : SocketAddr) (t₀ : Nat) (sent : List Nat) (hs : HostHandshake) (ops : List HostOp) : Prop :=
  ∀ pre nowMs post, ops = pre ++ .tick nowMs :: post →
    due t₀ (sent ++ welcomeTimes a hs pre) nowMs = none

/-- The rest of the run of a client that waits: the WELCOMEs stay within the budget, and it is given up at
the first tick that is due to, if there is one. -/
structure Ends (a : SocketAddr) (t₀ : Nat) (sent : List Nat) (hs : HostHandshake) (ops : List HostOp) :
    Prop where
  tries : (sent ++ welcomeTimes a hs ops).length ≤ controlMaxTries
  spaced : (sent ++ welcomeTimes a hs ops).IsChain fun t t' => t + controlRetryMs ≤ t'
  stays : NoneDue a t₀ sent hs ops → departures a hs ops = []
  leaves : ∀ pre nowMs post reason, ops = pre ++ .tick nowMs :: post → NoneDue a t₀ sent hs pre →
    due t₀ (sent ++ welcomeTimes a hs pre) nowMs = some reason →
      departures a hs ops = [(nowMs, reason)] ∧ welcomeTimes a hs ops = welcomeTimes a hs pre

end HostHandshake

end OnlineJam
