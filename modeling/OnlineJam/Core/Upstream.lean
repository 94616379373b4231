import OnlineJam.Core.Net
import OnlineJam.Core.Pipeline

/-!
# The upstream path of a client's audio

One client's pipeline at one end and its slot of the host at the other: the datagrams the pipeline
emits, and playing out any selection of them from the ring while they arrive.
-/

namespace OnlineJam

/-- The pipeline before frame `i` when frame `j` is encoded to `enc j`. -/
def pipelineAt (p : ClientPipeline) (shared : ClientShared) (enc : Nat → Bytes) :
    Nat → Option ClientPipeline
  | 0 => some p
  | i + 1 => do
    let q ← pipelineAt p shared enc i
    let (_, q) ← q.processFrame shared (some (enc i))
    pure q

/-- The datagram emitted for frame `i`. -/
def emittedAt (p : ClientPipeline) (shared : ClientShared) (enc : Nat → Bytes) (i : Nat) :
    Option Bytes := do
  let q ← pipelineAt p shared enc i
  let (dgram, _) ← q.processFrame shared (some (enc i))
  dgram

/-- What happens at the host's end. -/
inductive PlayEvent where
  /-- The datagram of frame `i` arrives. -/
  | deliver (i nowUs : Nat)
  | pop

/-- The frames whose datagrams have arrived, in order. -/
def delivered (es : List PlayEvent) : List Nat :=
  es.filterMap fun e => match e with
    | .deliver i _ => some i
    | .pop => none

/-- How often the ring was popped. -/
def popCount (es : List PlayEvent) : Nat :=
  es.countP fun e => match e with
    | .deliver .. => false
    | .pop => true

/-- The receive thread's state, the shared state, and what the pops returned. -/
structure PlayState where
  rx : RxState
  shared : HostShared
  popped : List PopOutcome

/-- One event, for datagrams `dgram i` from `src` and the ring of `slot`. -/
def PlayState.step (cfg : RxConfig) (src : SocketAddr) (slot : Fin maxClients) (dgram : Nat → Bytes)
    (st : PlayState) : PlayEvent → PlayState
  | .deliver i nowUs =>
    let r := routeHost cfg nowUs nowUs st.rx st.shared src (dgram i)
    { st with rx := r.rx, shared := r.shared }
  | .pop =>
    let stream := st.shared.clients slot
    let (outcome, jb) := stream.jb.popNext
    { st with
      shared := st.shared.setClient slot { stream with jb := jb }
      popped := st.popped ++ [outcome] }

/-- A schedule with isolated losses only: datagrams arrive in order from the first on, never two in a
row are missing, none is more than 63 ahead of the read position, and a position is popped only after
its own datagram or the next one has arrived. -/
structure IsolatedLosses (es : List PlayEvent) : Prop where
  first : ∀ i ∈ (delivered es).head?, i = 0
  order : (delivered es).Pairwise (· < ·)
  gaps : (delivered es).IsChain fun i j => j ≤ i + 2
  window : ∀ es₁ i nowUs es₂, es = es₁ ++ .deliver i nowUs :: es₂ → i ≤ popCount es₁ + 63
  ready : ∀ es₁ es₂, es = es₁ ++ .pop :: es₂ →
    popCount es₁ ∈ delivered es₁ ∨ popCount es₁ + 1 ∈ delivered es₁

end OnlineJam
