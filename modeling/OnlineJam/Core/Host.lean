import OnlineJam.Core.Control
import OnlineJam.Core.Pipeline

/-!
# Host process

The control loop (`spawn_host_control` in `jam-core`, `control.rs`), the receive and the transmit
thread (`spawn_rx` and `spawn_tx` in `net.rs`) and the sending half of the audio callback of the host,
joined by the channels between them. A step is one pass over a phase of a loop, or the execution of one
action, and the steps of the threads interleave in any order. What the source does in several stores or
sends within one action (`ClientJoined`, `ClientLeft`) is one step here. Clock readings come with the step.
The names the snapshots show are left out.
-/

namespace OnlineJam

open HostHandshake (senderId slotOfSender)

structure HostConfig where
  roomCode : Vector UInt8 roomCodeLen
  hostName : String
  params : EngineParams
  /-- Drawn when the session starts. -/
  sessionId : UInt16

/-- What the control loop still has to execute in its current phase. -/
inductive HostTask where
  | act (action : HostAction)
  | ping (dst : SocketAddr)
  | keepalive (dst : SocketAddr)
  | bye (dst : SocketAddr)
  deriving DecidableEq, Repr

/-- Where the control loop is. -/
inductive HostPhase where
  /-- About to look at the shutdown flag. -/
  | check
  /-- In `recv_timeout`. -/
  | wait
  /-- Feeding audio-path liveness into the handshake machine, from this slot on. -/
  | feed (slot : Fin maxClients)
  | tick
  | pings
  | keepalives
  | stopped
  deriving DecidableEq, Repr

/-- Where the receive loop is. -/
inductive RxPhase where
  | check
  /-- Draining address updates. -/
  | drain
  /-- In `recv_from`. -/
  | recv
  | stopped
  deriving DecidableEq, Repr

/-- Where the transmit loop is. -/
inductive TxPhase where
  | check
  /-- Draining address updates. -/
  | drain
  /-- Draining the ring. -/
  | send
  | stopped
  deriving DecidableEq, Repr

structure Host where
  params : EngineParams
  shared : HostShared
  hs : HostHandshake
  seq : SeqGen
  nowMs : Nat
  lastPing : Nat
  lastKeepalive : Nat
  phase : HostPhase
  tasks : List HostTask
  rx : RxState
  rxPhase : RxPhase
  /-- From the receive thread to the control thread. -/
  events : List CtrlEvent
  /-- From the control thread to the receive thread. -/
  updates : List AddrUpdate
  pipeline : HostPipeline
  tx : TxState
  txPhase : TxPhase
  /-- From the audio callback to the transmit thread. -/
  txRing : List TxItem
  /-- From the control thread to the transmit thread. -/
  txUpdates : List AddrUpdate
  /-- Set by the embedder to end the session. -/
  shutdown : Bool

/-- A step of the host that does not depend on a datagram. -/
inductive HostLabel where
  /-- The control loop goes on; the clock is read where a PING is stamped. -/
  | control (nowUs : Nat)
  /-- `recv_timeout` returns. -/
  | wake (nowMs : Nat)
  /-- The receive loop goes on. -/
  | rx
  /-- `recv_from` times out. -/
  | rxTimeout
  /-- The audio callback processes a frame whose mixes encode to this. -/
  | audio (encoded : Vector (Option Bytes) maxClients)
  /-- The transmit loop goes on. -/
  | tx
  | shutdown
  deriving DecidableEq, Repr

namespace Host

def sessionParams (params : EngineParams) : SessionParams :=
  { sampleRate := params.sampleRate, frameSamples := UInt16.ofNat params.frameSamples,
    codec := params.codec }

def new (cfg : HostConfig) : Host :=
  { params := cfg.params, shared := HostShared.new cfg.sessionId
    hs := HostHandshake.new cfg.roomCode cfg.sessionId (sessionParams cfg.params) cfg.hostName
    seq := SeqGen.new, nowMs := 0, lastPing := 0, lastKeepalive := 0, phase := .check, tasks := []
    rx := RxState.new, rxPhase := .check, events := [], updates := []
    pipeline := HostPipeline.new cfg.params, tx := TxState.new, txPhase := .check, txRing := []
    txUpdates := [], shutdown := false }

/-! ## Control thread -/

/-- `ControlIo::send`. -/
def send (h : Host) (control : Control) (dst : SocketAddr) : Host × Option Outgoing :=
  ({ h with seq := h.seq.next.2 },
    some
      { dst := dst
        bytes := stampedDatagram h.seq.next.1 control h.shared.sessionId hostSenderId })

/-- `ClientJoined`: the slot starts clean, mix state included. `lastRxUs` is not primed: a nonzero
value would be taken for a sign of life. -/
def clientJoined (h : Host) (slot : Fin maxClients) (addr : Option SocketAddr) : Host :=
  let stream := h.shared.clients slot
  let shared := h.shared.setClient slot
    { stream with jb := stream.jb.reset, lastRxUs := 0, rttUs := 0, active := true }
  { h with
    shared :=
      { shared with
        muted := Function.update shared.muted slot.succ false
        soloed := Function.update shared.soloed slot.succ false }
    updates := h.updates ++ [.client (UInt8.ofNat slot.val) addr]
    txUpdates := h.txUpdates ++ [.client (UInt8.ofNat slot.val) addr] }

/-- `ClientLeft`: clears this player's mute and solo, so a departed soloist cannot silence the room. -/
def clientLeft (h : Host) (slot : Fin maxClients) : Host :=
  let stream := h.shared.clients slot
  let shared := h.shared.setClient slot { stream with active := false, jb := stream.jb.reset }
  { h with
    shared :=
      { shared with
        muted := Function.update shared.muted slot.succ false
        soloed := Function.update shared.soloed slot.succ false }
    updates := h.updates ++ [.client (UInt8.ofNat slot.val) none]
    txUpdates := h.txUpdates ++ [.client (UInt8.ofNat slot.val) none] }

/-- Executes one task; the body of the closure `run` and of the loops that send. -/
def perform (h : Host) (nowUs : Nat) : HostTask → Host × Option Outgoing
  | .act (.send dst control) =>
    let (h', out) := h.send control dst
    (match control with
      | .welcome .. => { h' with hs := h'.hs.welcomeSent dst h.seq.next.1 }
      | _ => h', out)
  | .act (.clientJoined sender _) =>
    (match slotOfSender sender with
      | some slot => h.clientJoined slot (h.hs.clientAddr sender)
      | none => h, none)
  | .act (.clientLeft sender _) =>
    (match slotOfSender sender with
      | some slot => h.clientLeft slot
      | none => h, none)
  | .ping dst => h.send (.ping (UInt64.ofNat nowUs)) dst
  | .keepalive dst => h.send .keepalive dst
  | .bye dst => h.send .bye dst

/-- Addresses of all connected clients. -/
def peers (h : Host) : List SocketAddr := h.hs.clientAddrs.map Prod.snd

/-- The handshake's part in the dispatch of one event. -/
def dispatch (hs : HostHandshake) (sessionId : UInt16) (ev : CtrlEvent) (nowMs : Nat) :
    List HostAction × HostHandshake :=
  let hs := match hs.senderForAddr ev.src with
    | some sender => hs.markHeard sender nowMs
    | none => hs
  match ev.control with
  | .hello .. => hs.onHello ev.src ev.control nowMs
  | .ack ackedSeq _ => hs.onAck ev.src ackedSeq nowMs
  -- A spoofed BYE must not drop a client.
  | .bye => if ev.header.sessionId = sessionId then hs.onBye ev.src else ([], hs)
  | _ => ([], hs)

/-- A PONG updates the round-trip estimate of the client it came from. -/
def measure (h : Host) (ev : CtrlEvent) : HostShared :=
  match ev.control, (h.hs.senderForAddr ev.src).bind slotOfSender with
  | .pong t1Us t2Us t3Us, some slot =>
    let stream := h.shared.clients slot
    h.shared.setClient slot
      { stream with rttUs := updateRtt stream.rttUs (rttFromPong ev.rxUs t1Us t2Us t3Us) }
  | _, _ => h.shared

/-- `recv_timeout` returned at `nowMs`. -/
def wake (h : Host) (nowMs : Nat) : Host :=
  match h.events with
  | ev :: events =>
    let (actions, hs) := dispatch h.hs h.shared.sessionId ev nowMs
    { h with
      shared := h.measure ev, hs := hs, nowMs := nowMs, phase := .feed 0
      tasks := actions.map HostTask.act, events := events }
  | [] =>
    -- The channel is closed once the receive thread has returned.
    if h.rxPhase = .stopped then { h with phase := .stopped, tasks := h.peers.map HostTask.bye }
    else { h with nowMs := nowMs, phase := .feed 0 }

/-- One phase of the loop, with no task left. -/
def advance (h : Host) : Option Host :=
  match h.phase with
  | .check =>
    if h.shared.shutdown then
      some { h with phase := .stopped, tasks := (h.peers ++ h.peers).map HostTask.bye }
    else some { h with phase := .wait }
  | .feed slot =>
    let us := (h.shared.clients slot).lastRxUs
    let hs := if us > 0 then h.hs.markHeard (senderId slot) (us / 1000) else h.hs
    if hn : slot.val + 1 < maxClients then some { h with hs := hs, phase := .feed ⟨slot.val + 1, hn⟩ }
    else some { h with hs := hs, phase := .tick }
  | .tick =>
    let (actions, hs) := h.hs.tick h.nowMs
    some { h with hs := hs, phase := .pings, tasks := actions.map HostTask.act }
  | .pings =>
    if h.nowMs - h.lastPing ≥ pingIntervalMs then
      some { h with lastPing := h.nowMs, phase := .keepalives, tasks := h.peers.map HostTask.ping }
    else some { h with phase := .keepalives }
  | .keepalives =>
    if h.nowMs - h.lastKeepalive ≥ keepaliveMs then
      some { h with lastKeepalive := h.nowMs, phase := .check, tasks := h.peers.map HostTask.keepalive }
    else some { h with phase := .check }
  | .wait => none
  | .stopped => none

/-! ## Receive thread -/

/-- The receive loop up to `recv_from`. -/
def rxAdvance (h : Host) : Option Host :=
  match h.rxPhase with
  | .check => some { h with rxPhase := if h.shutdown then .stopped else .drain }
  | .drain =>
    match h.updates with
    | update :: updates => some { h with rx := h.rx.update update, updates := updates }
    | [] => some { h with rxPhase := .recv }
  | .recv => none
  | .stopped => none

/-- `recv_from` returns a datagram, which is routed at once. -/
def receive (h : Host) (src : SocketAddr) (bytes : Bytes) (nowUs t3Us : Nat) :
    Option (Host × Option Outgoing) :=
  if h.rxPhase = .recv then
    let cfg : RxConfig := { frameSamples := h.params.frameSamples, sampleRate := h.params.sampleRate }
    let r := routeHost cfg nowUs t3Us h.rx h.shared src bytes
    some ({ h with rx := r.rx, shared := r.shared, rxPhase := .check,
                   events := h.events ++ r.event.toList },
      r.reply.map fun bytes => { dst := src, bytes := bytes })
  else none

/-! ## Audio callback and transmit thread -/

/-- The audio callback; what the ring has no room for is dropped. -/
def audio (h : Host) (encoded : Vector (Option Bytes) maxClients) : Option Host :=
  (h.pipeline.processFrame h.shared encoded).map fun (emitted, pipeline) =>
    let items := emitted.map fun (slot, bytes) => { dest := slot, bytes := bytes }
    { h with pipeline := pipeline, txRing := h.txRing ++ items.take (txRingSize - h.txRing.length) }

/-- The transmit loop. -/
def txAdvance (h : Host) : Option (Host × Option Outgoing) :=
  match h.txPhase with
  | .check => some ({ h with txPhase := if h.shutdown then .stopped else .drain }, none)
  | .drain =>
    match h.txUpdates with
    | update :: updates => some ({ h with tx := h.tx.update update, txUpdates := updates }, none)
    | [] => some ({ h with txPhase := .send }, none)
  | .send =>
    match h.txRing with
    | item :: ring =>
      some ({ h with txRing := ring },
        (h.tx.resolve item).map fun addr => { dst := addr, bytes := item.bytes })
    | [] => some ({ h with txPhase := .check }, none)
  | .stopped => none

/-! ## Steps -/

def step (h : Host) : HostLabel → Option (Host × Option Outgoing)
  | .control nowUs =>
    match h.tasks with
    | task :: tasks => some ({ h with tasks := tasks }.perform nowUs task)
    | [] => h.advance.map fun h => (h, none)
  | .wake nowMs => if h.tasks = [] ∧ h.phase = .wait then some (h.wake nowMs, none) else none
  | .rx => h.rxAdvance.map fun h => (h, none)
  | .rxTimeout => if h.rxPhase = .recv then some ({ h with rxPhase := .check }, none) else none
  | .audio encoded => (h.audio encoded).map fun h => (h, none)
  | .tx => h.txAdvance
  | .shutdown => some ({ h with shutdown := true }, none)

end Host

end OnlineJam
