import OnlineJam.Protocol.Packet
import Mathlib.Data.List.FinRange

/-!
# Handshake state machines

Both sides of the join/leave handshake (`jam-protocol`, `handshake.rs`): pure machines that are fed
parsed control packets and clock readings and return the actions the embedder has to execute.
-/

namespace OnlineJam

/-- A socket address of either family. -/
inductive SocketAddr where
  | v4 (ip : UInt32) (port : UInt16)
  | v6 (ip : BitVec 128) (port : UInt16) (flowinfo scopeId : UInt32)
  deriving DecidableEq, Repr

/-- Audio parameters fixed by the host for the whole session. -/
structure SessionParams where
  sampleRate : UInt32
  frameSamples : UInt16
  codec : Codec
  deriving DecidableEq, Repr

/-! ## Client side -/

inductive JoinFailure where
  | denied (reason : DenyReason)
  | timeout
  deriving DecidableEq, Repr

inductive ClientPhase where
  | idle
  | joining (lastTxMs tries : Nat)
  | joined (senderId sessionId : UInt16) (params : SessionParams)
  | failed (failure : JoinFailure)
  deriving DecidableEq, Repr

inductive ClientAction where
  /-- Send this control packet to the host. -/
  | send (control : Control)
  /-- Handshake completed: bring up the audio path. -/
  | startAudio (senderId sessionId : UInt16) (params : SessionParams)
  /-- Roster changed. -/
  | rosterUpdate (roster : List PlayerInfo)
  /-- Handshake failed permanently. -/
  | failed (failure : JoinFailure)
  deriving DecidableEq, Repr

structure ClientHandshake where
  phase : ClientPhase
  hello : Control
  deriving DecidableEq, Repr

namespace ClientHandshake

def new (roomCode : Vector UInt8 roomCodeLen) (name : String) : ClientHandshake :=
  { phase := .idle, hello := .hello protocolVersion roomCode name 0b111 0b011 }

/-- Kicks off the join. Returns the first HELLO to send. -/
def start (cs : ClientHandshake) (nowMs : Nat) : List ClientAction × ClientHandshake :=
  ([.send cs.hello], { cs with phase := .joining nowMs 1 })

/-- Clock tick; drives HELLO retransmission and the give-up timeout. -/
def tick (cs : ClientHandshake) (nowMs : Nat) : List ClientAction × ClientHandshake :=
  match cs.phase with
  | .joining lastTxMs tries =>
    if nowMs - lastTxMs < controlRetryMs then ([], cs)
    else if controlMaxTries ≤ tries then ([.failed .timeout], { cs with phase := .failed .timeout })
    else ([.send cs.hello], { cs with phase := .joining nowMs (tries + 1) })
  | _ => ([], cs)

/-- A control packet arrived from the host. -/
def onControl (cs : ClientHandshake) (control : Control) : List ClientAction × ClientHandshake :=
  match cs.phase, control with
  | .joining .., .welcome assignedId sessionId sampleRate frameSamples codec roster =>
    let params : SessionParams :=
      { sampleRate := sampleRate, frameSamples := frameSamples, codec := codec }
    ([.startAudio assignedId sessionId params, .rosterUpdate roster],
      { cs with phase := .joined assignedId sessionId params })
  | .joining .., .deny reason =>
    ([.failed (.denied reason)], { cs with phase := .failed (.denied reason) })
  | .joined .., .roster players => ([.rosterUpdate players], cs)
  | _, _ => ([], cs)

end ClientHandshake

/-! ## Host side -/

inductive LeaveReason where
  | bye | timeout | welcomeUnacked
  deriving DecidableEq, Repr

inductive HsSlotState where
  /-- WELCOME sent, awaiting ack (explicit ACK or first audio). -/
  | pending (welcomeSeq : Option UInt16) (lastTxMs tries : Nat)
  | active
  deriving DecidableEq, Repr

structure HsSlot where
  addr : SocketAddr
  name : String
  state : HsSlotState
  lastHeardMs : Nat
  deriving DecidableEq, Repr

inductive HostAction where
  /-- Send this control to one address. -/
  | send (dst : SocketAddr) (control : Control)
  /-- A client finished the handshake (audio slots may now activate). -/
  | clientJoined (senderId : UInt16) (name : String)
  /-- A client left; free its audio slot. -/
  | clientLeft (senderId : UInt16) (reason : LeaveReason)
  deriving DecidableEq, Repr

structure HostHandshake where
  roomCode : Vector UInt8 roomCodeLen
  sessionId : UInt16
  params : SessionParams
  hostName : String
  slots : Fin maxClients → Option HsSlot

namespace HostHandshake

def new (roomCode : Vector UInt8 roomCodeLen) (sessionId : UInt16) (params : SessionParams)
    (hostName : String) : HostHandshake :=
  { roomCode := roomCode, sessionId := sessionId, params := params, hostName := hostName,
    slots := fun _ => none }

/-- The slot table, in order. -/
abbrev indices : List (Fin maxClients) := List.finRange maxClients

/-- Sender id of a slot (slot 0 is sender 1; the host itself is 0). -/
def senderId (slot : Fin maxClients) : UInt16 := UInt16.ofNat (slot.val + 1)

def slotOfSender (senderId : UInt16) : Option (Fin maxClients) :=
  if h : 1 ≤ senderId.toNat ∧ senderId.toNat ≤ maxClients then
    some ⟨senderId.toNat - 1, by omega⟩
  else none

/-- Full roster including the host. -/
def roster (hs : HostHandshake) : List PlayerInfo :=
  { id := hostSenderId, name := hs.hostName } ::
    indices.filterMap fun i => (hs.slots i).map fun s => { id := senderId i, name := s.name }

def clientAddr (hs : HostHandshake) (senderId : UInt16) : Option SocketAddr := do
  let slot ← slotOfSender senderId
  let s ← hs.slots slot
  pure s.addr

/-- Addresses of all connected (pending or active) clients. -/
def clientAddrs (hs : HostHandshake) : List (UInt16 × SocketAddr) :=
  indices.filterMap fun i => (hs.slots i).map fun s => (senderId i, s.addr)

/-- The slot registered for a source address. -/
def slotForAddr (hs : HostHandshake) (addr : SocketAddr) : Option (Fin maxClients) :=
  indices.find? fun i => match hs.slots i with
    | some s => s.addr = addr
    | none => false

/-- The sender id registered for a source address, if any. -/
def senderForAddr (hs : HostHandshake) (addr : SocketAddr) : Option UInt16 :=
  (hs.slotForAddr addr).map senderId

def welcomeFor (hs : HostHandshake) (slot : Fin maxClients) : Control :=
  .welcome (senderId slot) hs.sessionId hs.params.sampleRate hs.params.frameSamples hs.params.codec
    hs.roster

def broadcastRoster (hs : HostHandshake) (except : Option SocketAddr) : List HostAction :=
  indices.filterMap fun i => do
    let s ← hs.slots i
    if some s.addr ≠ except then some (.send s.addr (.roster hs.roster)) else none

/-- Puts `s` into a slot, or empties it. -/
def setSlot (hs : HostHandshake) (i : Fin maxClients) (s : Option HsSlot) : HostHandshake :=
  { hs with slots := Function.update hs.slots i s }

/-- HELLO received from `addr`. -/
def onHello (hs : HostHandshake) (addr : SocketAddr) (hello : Control) (nowMs : Nat) :
    List HostAction × HostHandshake :=
  match hello with
  | .hello protoVersion roomCode name _ _ =>
    if protoVersion ≠ protocolVersion then ([.send addr (.deny .versionMismatch)], hs)
    else if roomCode ≠ hs.roomCode then ([.send addr (.deny .badRoomCode)], hs)
    else
      let entry : HsSlot :=
        { addr := addr, name := name, state := .pending none nowMs 1, lastHeardMs := nowMs }
      match hs.slotForAddr addr with
      | some slot =>
        -- A HELLO retry or a client restart: back to pending, WELCOME again.
        let hs := hs.setSlot slot (some entry)
        ([.send addr (hs.welcomeFor slot)], hs)
      | none =>
        match indices.find? fun i => (hs.slots i).isNone with
        | none => ([.send addr (.deny .roomFull)], hs)
        | some slot =>
          let hs := hs.setSlot slot (some entry)
          (.send addr (hs.welcomeFor slot) :: .clientJoined (senderId slot) name ::
            hs.broadcastRoster (some addr), hs)
  | _ => ([], hs)

/-- Applies `f` to every occupied slot. -/
def mapSlots (hs : HostHandshake) (f : HsSlot → HsSlot) : HostHandshake :=
  { hs with slots := fun i => (hs.slots i).map f }

/-- The embedder stamped `seq` on an outgoing WELCOME. -/
def welcomeSent (hs : HostHandshake) (dst : SocketAddr) (seq : UInt16) : HostHandshake :=
  hs.mapSlots fun s =>
    if s.addr = dst then
      match s.state with
      | .pending _ lastTxMs tries => { s with state := .pending (some seq) lastTxMs tries }
      | .active => s
    else s

/-- ACK received from a client address. -/
def onAck (hs : HostHandshake) (addr : SocketAddr) (ackedSeq : UInt16) (nowMs : Nat) :
    List HostAction × HostHandshake :=
  ([], hs.mapSlots fun s =>
    if s.addr = addr then
      match s.state with
      | .pending (some ws) lastTxMs tries =>
        { s with
          lastHeardMs := nowMs
          state := if ws = ackedSeq then .active else .pending (some ws) lastTxMs tries }
      | _ => { s with lastHeardMs := nowMs }
    else s)

/-- Any packet arrived from this sender: refresh liveness and treat as implicit WELCOME ack. -/
def markHeard (hs : HostHandshake) (senderId : UInt16) (nowMs : Nat) : HostHandshake :=
  match slotOfSender senderId with
  | some slot =>
    match hs.slots slot with
    | some s => hs.setSlot slot (some { s with lastHeardMs := nowMs, state := .active })
    | none => hs
  | none => hs

/-- Frees the slots that satisfy `pred` and tells everybody who is left. -/
def removeWhere (hs : HostHandshake) (pred : HsSlot → Bool) (reason : LeaveReason) :
    List HostAction × HostHandshake :=
  let gone := indices.filter fun i => (hs.slots i).any pred
  let hs' : HostHandshake :=
    { hs with slots := fun i => if (hs.slots i).any pred then none else hs.slots i }
  let left := gone.map fun i => HostAction.clientLeft (senderId i) reason
  (if gone.isEmpty then left else left ++ hs'.broadcastRoster none, hs')

/-- BYE received. -/
def onBye (hs : HostHandshake) (addr : SocketAddr) : List HostAction × HostHandshake :=
  hs.removeWhere (fun s => s.addr = addr) .bye

/-- What a clock tick does to one occupied slot. -/
inductive TickOutcome where
  | left (reason : LeaveReason)
  | resend (s : HsSlot)
  | kept
  deriving DecidableEq, Repr

/-- The body of the loop of `tick`. -/
def tickSlot (nowMs : Nat) (s : HsSlot) : TickOutcome :=
  if nowMs - s.lastHeardMs > peerTimeoutMs then .left .timeout
  else match s.state with
    | .pending welcomeSeq lastTxMs tries =>
      if nowMs - lastTxMs ≥ controlRetryMs then
        if tries ≥ controlMaxTries then .left .welcomeUnacked
        else .resend { s with state := .pending welcomeSeq nowMs (tries + 1) }
      else .kept
    | .active => .kept

/-- A slot after a clock tick. -/
def tickEntry (nowMs : Nat) (s : HsSlot) : Option HsSlot :=
  match tickSlot nowMs s with
  | .left _ => none
  | .resend s' => some s'
  | .kept => some s

/-- Clock tick: WELCOME retransmits and silence timeouts. -/
def tick (hs : HostHandshake) (nowMs : Nat) : List HostAction × HostHandshake :=
  let outcome := fun i => (hs.slots i).map (tickSlot nowMs)
  let hs' : HostHandshake := { hs with slots := fun i => (hs.slots i).bind (tickEntry nowMs) }
  let left := indices.filterMap fun i => match outcome i with
    | some (.left reason) => some (HostAction.clientLeft (senderId i) reason)
    | _ => none
  let resend := indices.filterMap fun i => match outcome i with
    | some (.resend s) => some (HostAction.send s.addr (hs'.welcomeFor i))
    | _ => none
  (left ++ resend ++ (if left.isEmpty then [] else hs'.broadcastRoster none), hs')

end HostHandshake

end OnlineJam
