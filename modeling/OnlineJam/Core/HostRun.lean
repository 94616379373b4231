import OnlineJam.Core.Host
import OnlineJam.Lib.Run

/-!
# Runs of the host process

The host alone, among everything that can happen to it: the steps of its threads, datagrams from
anywhere, the audio callback taking from the jitter buffers, and the keys and sliders of the user
interface. The steps interleave in any order.
-/

namespace OnlineJam

open OnlineJam.Lib

/-- How the audio callback uses the jitter buffer of a stream. -/
inductive JitterRead where
  | pop | skip | reset
  deriving DecidableEq, Repr

def JitterRead.exec (jb : JitterBuffer) : JitterRead → JitterBuffer
  | pop => jb.popNext.2
  | skip => jb.skipNext.2
  | reset => jb.reset

/-- What the user can change about a player. -/
inductive MixSetting where
  | gain (value : ℚ)
  | muted (on : Bool)
  | soloed (on : Bool)
  deriving DecidableEq

/-- Something that happens to the host. -/
inductive HostEvent where
  | step (l : HostLabel)
  /-- A datagram reaches the socket. -/
  | recv (src : SocketAddr) (bytes : Bytes) (nowUs t3Us : Nat)
  /-- The audio callback works on the stream of a slot. -/
  | read (slot : Fin maxClients) (op : JitterRead)
  /-- The user works on a player, the host itself included. -/
  | mix (player : Fin (maxClients + 1)) (setting : MixSetting)
  deriving DecidableEq

/-- Changes one setting of a player. -/
def HostShared.adjust (shared : HostShared) (player : Fin (maxClients + 1)) :
    MixSetting → HostShared
  | .gain value => { shared with gains := Function.update shared.gains player value }
  | .muted on => { shared with muted := Function.update shared.muted player on }
  | .soloed on => { shared with soloed := Function.update shared.soloed player on }

/-- This task announces a player for slot `k`. -/
def HostTask.joins (k : Fin maxClients) : HostTask → Bool
  | .act (.clientJoined sender _) => HostHandshake.slotOfSender sender = some k
  | _ => false

/-- This task takes the player of slot `k` back. -/
def HostTask.leaves (k : Fin maxClients) : HostTask → Bool
  | .act (.clientLeft sender _) => HostHandshake.slotOfSender sender = some k
  | _ => false

namespace Host

def next (h : Host) : HostEvent → Option Host
  | .step l => (h.step l).map Prod.fst
  | .recv src bytes nowUs t3Us => (h.receive src bytes nowUs t3Us).map Prod.fst
  | .read slot op =>
    let stream := h.shared.clients slot
    some { h with shared := h.shared.setClient slot { stream with jb := op.exec stream.jb } }
  | .mix player setting => some { h with shared := h.shared.adjust player setting }

/-- The runs of a host from its start, each of whose steps meets a condition. -/
abbrev Runs (cfg : HostConfig) (c : Host → HostEvent → Prop) : List HostEvent → Host → Prop :=
  Steps next c (Host.new cfg)

/-- A run on given events. -/
theorem Runs.of_test (cfg : HostConfig) (es : List HostEvent) (p : Host → Bool)
    (h : (exec (guarded next fun _ _ => true) (Host.new cfg) es).any p = true) :
    ∃ h, Runs cfg (fun _ _ => True) es h ∧ p h = true :=
  Steps.of_test (fun _ _ _ => trivial) h

/-- The task that this event executes. -/
def executed (h : Host) : HostEvent → Option HostTask
  | .step (.control _) => h.tasks.head?
  | _ => none

/-- This event executes `ClientJoined` for slot `k`. -/
def joinsAt (h : Host) (e : HostEvent) (k : Fin maxClients) : Bool :=
  (h.executed e).any (HostTask.joins k)

/-- This event executes `ClientLeft` for slot `k`. -/
def leavesAt (h : Host) (e : HostEvent) (k : Fin maxClients) : Bool :=
  (h.executed e).any (HostTask.leaves k)

end Host

/-! ## What a player finds -/

/-- The frame that waits in a slot of the ring. -/
def Slot.waiting (s : Slot) : Option (UInt16 × UInt32 × Bytes) :=
  match s.state with
  | .written => some (s.seq, s.timestamp, s.payload.take s.len.toNat)
  | _ => none

end OnlineJam
