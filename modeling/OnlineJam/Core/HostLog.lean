import OnlineJam.Core.HostRun

/-!
# What an observer of the host writes down

Whose slot it is since the control loop last announced a player, whose frames were stored for it, when
the control loop last dealt with a packet of the player, and what happened to the slot since the start
of the session.
-/

namespace OnlineJam

open OnlineJam.Lib
open HostHandshake (senderId)

structure HostLog where
  /-- The address with which `ClientJoined` was executed last, unless `ClientLeft` was since. -/
  occupant : Fin maxClients → Option SocketAddr
  /-- Where the frames came from that were stored since either was executed. -/
  stored : Fin maxClients → List SocketAddr
  /-- When the control loop last processed an event from the address that has the slot, as long as it
  keeps it. -/
  heard : Fin maxClients → Option Nat
  /-- The gain that the user gave to a player last. -/
  gain : Fin (maxClients + 1) → ℚ
  /-- How many frames of a slot had to be concealed. -/
  concealed : Fin maxClients → Nat

namespace HostLog

def new : HostLog :=
  { occupant := fun _ => none, stored := fun _ => [], heard := fun _ => none, gain := fun _ => 1
    concealed := fun _ => 0 }

/-- The log after a step from `h` to `h'` on the event `e`. -/
def observe (g : HostLog) (h : Host) (e : HostEvent) (h' : Host) : HostLog where
  occupant k :=
    if h.joinsAt e k then h.hs.clientAddr (senderId k)
    else if h.leavesAt e k then none
    else g.occupant k
  stored k :=
    if h.joinsAt e k ∨ h.leavesAt e k then []
    else match e with
      | .recv src _ _ _ =>
        if (h'.shared.clients k).jb.stats.received = (h.shared.clients k).jb.stats.received then
          g.stored k
        else g.stored k ++ [src]
      | _ => g.stored k
  heard k :=
    let addr := h'.hs.clientAddr (senderId k)
    let kept := if addr = h.hs.clientAddr (senderId k) then g.heard k else none
    match e, h.events with
    | .step (.wake nowMs), ev :: _ => if addr = some ev.src then some nowMs else kept
    | _, _ => kept
  gain p := match e with
    | .mix player (.gain value) => if player = p then value else g.gain p
    | _ => g.gain p
  concealed k := match e with
    | .read slot .pop =>
      let jb := (h.shared.clients slot).jb
      if slot = k ∧ jb.started ∧ jb.popNext.1 = .missing then g.concealed k + 1 else g.concealed k
    | _ => g.concealed k

end HostLog

/-- The runs of a host from its start that are observed, each of whose steps meets a condition. -/
abbrev Host.Watched (cfg : HostConfig) (c : Host × HostLog → HostEvent → Prop) :
    List HostEvent → Host × HostLog → Prop :=
  Steps (watch Host.next HostLog.observe) c (Host.new cfg, HostLog.new)

/-- An observed run on given events. -/
theorem Host.Watched.of_test (cfg : HostConfig) (es : List HostEvent)
    (test : Host × HostLog → HostEvent → Bool) (p : Host × HostLog → Bool)
    {c : Host × HostLog → HostEvent → Prop} (hc : ∀ w e, test w e = true → c w e)
    (h : (exec (guarded (watch Host.next HostLog.observe) test) (Host.new cfg, HostLog.new) es).any p =
      true) : ∃ w, Host.Watched cfg c es w ∧ p w = true := Steps.of_test hc h

end OnlineJam
