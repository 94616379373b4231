import OnlineJam.Core.Playout

/-!
# When the depth is corrected

The moments of a run at which the controller or the depth of the buffer may have changed: when a tick finds
something to play, after every pull, and after every event. A correction is latched at one of them and
carried out at another.
-/

namespace OnlineJam

/-- The controller and the depth of the buffer at some point of a run. -/
structure Moment where
  controller : PlayoutController
  depth : Int

/-- The depth is more than `margin` away from the target, on the side that the correction is for. -/
def Moment.Calls (m : Moment) (margin : Int) : Adjust → Prop
  | .none => True
  | .dropOne => m.controller.target + margin < m.depth
  | .insertOne => m.depth < m.controller.target - margin

namespace Playback

variable {n : Nat} {σ : Type} (decode : σ → Option Bytes → Samples n → Bool × Samples n × σ)

def moment (p : Playback n σ) : Moment := { controller := p.playout.controller, depth := p.log.buffer.depth }

/-- The moments of a tick before any correction: once there is something to play, and after every pull. -/
def pulled (p : Playback n σ) : List Moment :=
  if p.prime.1 then
    p.prime.2.moment ::
      if p.playout.driftEnabled then
        (pulls decode fillRounds p.prime.2.rated).map fun r => r.2.moment
      else [(p.prime.2.pullDecoded decode).2.moment]
  else []

/-- The playout that `apply_step_adjustment` of a tick is called on, and the frame it is called with;
none if the tick is silent. -/
def adjusting (p : Playback n σ) (out : Samples n) : Option (Playback n σ × Samples n) :=
  if p.prime.1 then
    if p.playout.driftEnabled then
      let (live, p) := fillStaging decode fillRounds p.prime.2.rated
      if live then
        let (popped, staging) := p.playout.staging.pop n
        let out : Samples n := match popped with
          | some samples => fun i => samples.getD i 0
          | none => out
        some ({ p with playout := { p.playout with staging := staging } }, out)
      else none
    else
      let (hit, p) := p.prime.2.pullDecoded decode
      hit.map fun _ => (p, p.playout.decodeBuf)
  else none

/-- The moments of an event. -/
def eventMoments (p : Playback n σ) (e : StreamEvent n) : List Moment :=
  match e with
  | .play (.tick _) => p.pulled decode ++ [(p.meet decode e).moment]
  | _ => [(p.meet decode e).moment]

/-- The moments of a run. -/
def moments (p : Playback n σ) : List (StreamEvent n) → List Moment
  | [] => []
  | e :: es => p.eventMoments decode e ++ (p.meet decode e).moments es

end Playback

end OnlineJam
