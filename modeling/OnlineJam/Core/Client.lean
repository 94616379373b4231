import OnlineJam.Core.Control
import OnlineJam.Core.Pipeline

/-!
# Client process

The control loop (`spawn_client_control` in `jam-core`, `control.rs`), the receive thread (`spawn_rx` in
`net.rs`) and the sending half of the audio callback of a client, with the granularity of `Host`. The
downstream half of the callback, which plays the mix, is left out.
-/

namespace OnlineJam

structure ClientConfig where
  roomCode : Vector UInt8 roomCodeLen
  name : String
  params : EngineParams
  hostAddr : SocketAddr

/-- What the control loop still has to execute in its current phase. -/
inductive ClientTask where
  | act (action : ClientAction)
  /-- Acknowledges the WELCOME with this header, which carries this session id. -/
  | ack (header : Header) (sessionId : UInt16)
  | bye
  deriving DecidableEq, Repr

/-- Where the control loop is. -/
inductive ClientLoop where
  /-- About to look at the shutdown flag. -/
  | check
  /-- In `recv_timeout`. -/
  | wait
  /-- Handing the packet, if there is one for it, and the clock to the handshake machine. -/
  | handshake (control : Option Control)
  /-- Dropping to a rejoin if the host went quiet. -/
  | liveness
  | pings
  | keepalives
  | stopped
  deriving DecidableEq, Repr

structure Client where
  cfg : ClientConfig
  shared : ClientShared
  cs : ClientHandshake
  seq : SeqGen
  roster : List PlayerInfo
  lastRosterSeq : Option UInt16
  nowMs : Nat
  lastPing : Nat
  lastKeepalive : Nat
  /-- While `some`, the handshake is attempted again until then. -/
  rejoinDeadline : Option Nat
  terminalStatus : Option String
  phase : ClientLoop
  tasks : List ClientTask
  rx : RxState
  rxStopped : Bool
  /-- From the receive thread to the control thread. -/
  events : List CtrlEvent
  pipeline : ClientPipeline
  /-- Set by the embedder to leave the session. -/
  shutdown : Bool

/-- A step of the client that does not depend on a datagram. -/
inductive ClientLabel where
  /-- The control loop goes on; the clock is read where the step needs it. -/
  | control (nowUs : Nat)
  /-- `recv_timeout` returns. -/
  | wake (nowMs : Nat)
  /-- The audio callback processes a frame that encodes to this. -/
  | audio (encoded : Option Bytes)
  /-- The receive thread sees the shutdown flag. -/
  | rxStop
  | shutdown
  deriving DecidableEq, Repr

def Codec.debug : Codec → String
  | .opus => "Opus"
  | .pcmS16 => "PcmS16"
  | .pcmF32 => "PcmF32"

def DenyReason.debug : DenyReason → String
  | .badRoomCode => "BadRoomCode"
  | .roomFull => "RoomFull"
  | .versionMismatch => "VersionMismatch"

namespace Client

/-- The state when the loop is entered, with the first HELLO still to be sent. The clock is read for
the deadline and again for the handshake. -/
def new (cfg : ClientConfig) (startMs nowMs : Nat) : Client :=
  let (actions, cs) := (ClientHandshake.new cfg.roomCode cfg.name).start nowMs
  { cfg := cfg, shared := ClientShared.new, cs := cs, seq := SeqGen.new
    roster := [], lastRosterSeq := none, nowMs := nowMs, lastPing := 0, lastKeepalive := 0
    rejoinDeadline := some (startMs + rejoinWindowMs), terminalStatus := none
    phase := .check, tasks := actions.map ClientTask.act
    rx := RxState.new, rxStopped := false, events := [], pipeline := ClientPipeline.new cfg.params
    shutdown := false }

/-! ## Control thread -/

/-- `ControlIo::send` to the host. -/
def send (c : Client) (control : Control) (sessionId : UInt16) : Client × Option Outgoing :=
  ({ c with seq := c.seq.next.2 },
    some
      { dst := c.cfg.hostAddr
        bytes := stampedDatagram c.seq.next.1 control sessionId c.shared.senderId })

/-- A fresh handshake, begun at once. -/
def restart (c : Client) : Client :=
  let (actions, cs) := (ClientHandshake.new c.cfg.roomCode c.cfg.name).start c.nowMs
  { c with cs := cs, tasks := actions.map ClientTask.act ++ c.tasks }

/-- `StartAudio`. The pipeline was built from this client's own flags, so a host with other
parameters is only warned about. -/
def startAudio (c : Client) (senderId sessionId : UInt16) (params : SessionParams) (nowUs : Nat) :
    Client :=
  let mismatch := params.frameSamples.toNat ≠ c.cfg.params.frameSamples ∨
    params.codec ≠ c.cfg.params.codec
  { c with
    terminalStatus :=
      if mismatch then
        some ("parameter mismatch: host uses " ++ params.codec.debug ++ " at " ++
          toString params.frameSamples.toNat ++
          " samples/frame — restart with matching --codec/--frame")
      else c.terminalStatus
    shared :=
      { c.shared with
        fromHost := { c.shared.fromHost with jb := c.shared.fromHost.jb.reset, lastRxUs := nowUs }
        sessionId := sessionId, senderId := senderId, joined := true }
    rejoinDeadline := some (c.nowMs + rejoinWindowMs)
    -- A restarted host counts its packets from zero again.
    lastRosterSeq := none }

/-- The handshake failed. -/
def failed (c : Client) : JoinFailure → Client
  | .denied reason =>
    { c with terminalStatus := some ("denied: " ++ reason.debug), rejoinDeadline := none }
  | .timeout =>
    let again := c.rejoinDeadline.any fun deadline => c.nowMs < deadline
    if again then c.restart
    else { c with terminalStatus := some "could not reach host (timed out)" }

/-- Executes one task. -/
def perform (c : Client) (nowUs : Nat) : ClientTask → Client × Option Outgoing
  | .act (.send control) => c.send control c.shared.sessionId
  | .act (.startAudio senderId sessionId params) =>
    (c.startAudio senderId sessionId params nowUs, none)
  | .act (.rosterUpdate roster) => ({ c with roster := roster }, none)
  | .act (.failed failure) => (c.failed failure, none)
  | .ack header sessionId => c.send (.ack header.seq header.ptype.toU8) sessionId
  | .bye => c.send .bye c.shared.sessionId

/-- Drops the audio path. -/
def leave (c : Client) : Client :=
  { c with
    shared :=
      { c.shared with
        joined := false
        fromHost := { c.shared.fromHost with jb := c.shared.fromHost.jb.reset } } }

/-- The dispatch of one event, up to what the handshake machine has to say. -/
def dispatch (c : Client) (ev : CtrlEvent) : Client :=
  match ev.control with
  | .welcome _ sessionId _ _ _ _ =>
    -- Always ack: the host may be retransmitting because the previous ack was lost.
    { c with tasks := [.ack ev.header sessionId], phase := .handshake (some ev.control) }
  | .deny _ => { c with phase := .handshake (some ev.control) }
  | .roster players =>
    let (accept, last) := acceptControlSeq c.lastRosterSeq ev.header.seq
    { c with
      lastRosterSeq := last, roster := if accept then players else c.roster
      phase := .handshake none }
  | .pong t1Us t2Us t3Us =>
    let stream := c.shared.fromHost
    let rttUs := updateRtt stream.rttUs (rttFromPong ev.rxUs t1Us t2Us t3Us)
    { c with
      shared := { c.shared with fromHost := { stream with rttUs := rttUs } }
      phase := .handshake none }
  | .bye =>
    -- A spoofed BYE must not kick us off.
    if ev.header.sessionId = c.shared.sessionId then
      { c.leave with
        terminalStatus := some "host ended the session", rejoinDeadline := none
        phase := .handshake none }
    else { c with phase := .handshake none }
  | _ => { c with phase := .handshake none }

/-- `recv_timeout` returned at `nowMs`. -/
def wake (c : Client) (nowMs : Nat) : Client :=
  match c.events with
  | ev :: events => dispatch { c with nowMs := nowMs, events := events } ev
  | [] =>
    if c.rxStopped then
      { c with phase := .stopped, tasks := if c.shared.joined then [.bye] else [] }
    else { c with nowMs := nowMs, phase := .handshake none }

/-- What the handshake machine has to say to the packet, if there is one for it. -/
def hear (cs : ClientHandshake) : Option Control → List ClientAction × ClientHandshake
  | some control => cs.onControl control
  | none => ([], cs)

/-- The handshake machine's turn: the packet, then the clock. -/
def runHandshake (c : Client) (control : Option Control) : Client :=
  let heard := hear c.cs control
  let timed := heard.2.tick c.nowMs
  { c with cs := timed.2, phase := .liveness, tasks := (heard.1 ++ timed.1).map ClientTask.act }

/-- One phase of the loop, with no task left. -/
def advance (c : Client) (nowUs : Nat) : Option (Client × Option Outgoing) :=
  match c.phase with
  | .check =>
    if c.shared.shutdown then
      some ({ c with phase := .stopped, tasks := if c.shared.joined then [.bye, .bye] else [] }, none)
    else some ({ c with phase := .wait }, none)
  | .handshake control => some (c.runHandshake control, none)
  | .liveness =>
    if c.shared.joined ∧ nowUs - c.shared.fromHost.lastRxUs > peerTimeoutMs * 1000 then
      let c := c.leave
      some (restart { c with rejoinDeadline := some (c.nowMs + rejoinWindowMs), phase := .pings }, none)
    else some ({ c with phase := .pings }, none)
  | .pings =>
    if c.shared.joined ∧ c.nowMs - c.lastPing ≥ pingIntervalMs then
      some (send { c with lastPing := c.nowMs, phase := .keepalives } (.ping (UInt64.ofNat nowUs))
        c.shared.sessionId)
    else some ({ c with phase := .keepalives }, none)
  | .keepalives =>
    if c.shared.joined ∧ c.nowMs - c.lastKeepalive ≥ keepaliveMs then
      some (send { c with lastKeepalive := c.nowMs, phase := .check } .keepalive c.shared.sessionId)
    else some ({ c with phase := .check }, none)
  | .wait => none
  | .stopped => none

/-! ## Receive thread and audio callback -/

/-- `recv_from` returns a datagram, which is routed at once. There are no address updates to drain. -/
def receive (c : Client) (src : SocketAddr) (bytes : Bytes) (nowUs t3Us : Nat) :
    Option (Client × Option Outgoing) :=
  if c.rxStopped then none
  else
    let cfg : RxConfig :=
      { frameSamples := c.cfg.params.frameSamples, sampleRate := c.cfg.params.sampleRate }
    let r := routeClient cfg c.cfg.hostAddr nowUs t3Us c.rx c.shared src bytes
    some ({ c with rx := r.rx, shared := r.shared, events := c.events ++ r.event.toList },
      r.reply.map fun bytes => { dst := src, bytes := bytes })

/-- The audio callback sends its frame through the transmit thread. -/
def audio (c : Client) (encoded : Option Bytes) : Option (Client × Option Outgoing) :=
  (c.pipeline.processFrame c.shared encoded).map fun (dgram, pipeline) =>
    ({ c with pipeline := pipeline }, dgram.map fun bytes => { dst := c.cfg.hostAddr, bytes := bytes })

/-! ## Steps -/

def step (c : Client) : ClientLabel → Option (Client × Option Outgoing)
  | .control nowUs =>
    match c.tasks with
    | task :: tasks => some ({ c with tasks := tasks }.perform nowUs task)
    | [] => c.advance nowUs
  | .wake nowMs => if c.tasks = [] ∧ c.phase = .wait then some (c.wake nowMs, none) else none
  | .audio encoded => c.audio encoded
  | .rxStop => if c.shutdown then some ({ c with rxStopped := true }, none) else none
  | .shutdown => some ({ c with shutdown := true }, none)

end Client

end OnlineJam
