import OnlineJam.Core.Host

/-!
# One datagram, from the socket to the last answer

What the receive routine and then the control handler do with a single datagram, when nothing comes in
between.
-/

namespace OnlineJam

namespace Host

/-- The loop of the closure `run`. -/
def runTasks (nowUs : Nat) : List HostTask → Host → Host × List Outgoing
  | [], h => (h, [])
  | task :: tasks, h =>
    let (h, out) := h.perform nowUs task
    let (h, outs) := runTasks nowUs tasks h
    (h, out.toList ++ outs)

/-- The control loop's part in one event. -/
def handleEvent (h : Host) (ev : CtrlEvent) (nowMs nowUs : Nat) : Host × List Outgoing :=
  let (actions, hs) := dispatch h.hs h.shared.sessionId ev nowMs
  runTasks nowUs (actions.map HostTask.act) { h with shared := h.measure ev, hs := hs }

/-- The receive routine and then the control handler on one datagram. -/
def handleDatagram (h : Host) (src : SocketAddr) (bytes : Bytes) (nowUs t3Us nowMs sendUs : Nat) :
    Host × List Outgoing :=
  let cfg : RxConfig := { frameSamples := h.params.frameSamples, sampleRate := h.params.sampleRate }
  let r := routeHost cfg nowUs t3Us h.rx h.shared src bytes
  let h := { h with rx := r.rx, shared := r.shared }
  let reply := (r.reply.map fun bytes => ({ dst := src, bytes := bytes } : Outgoing)).toList
  match r.event with
  | none => (h, reply)
  | some ev =>
    let (h, outs) := h.handleEvent ev nowMs sendUs
    (h, reply ++ outs)

end Host

end OnlineJam
