import OnlineJam.Audio.Mixer
import OnlineJam.Core.Shared
import Mathlib.Data.Fin.Tuple.Basic

/-!
# Host pipeline, mixing half

The part of `HostPipeline::process_frame` (`jam-core`, `pipeline.rs`) that mixes: steps 1, 2 and 4, and
of step 3 the frame that goes to the encoder. What the playout of a client puts out is an input here.
The buffers are those of the pipeline and keep what an earlier frame left in them.
-/

namespace OnlineJam

/-- Master trim applied to the sum. -/
def masterTrim : ℚ := 1 / 2

inductive MonitorMode where
  | throughMix | off | direct
  deriving DecidableEq, Repr

namespace HostShared

/-- A solo of this player counts: the player is there and not muted. -/
def soloCounts (shared : HostShared) (p : Fin (maxClients + 1)) : Bool :=
  if shared.muted p then false
  else Fin.cases true (fun c => (shared.clients c).active) p

def anySolo (shared : HostShared) : Bool :=
  (List.finRange (maxClients + 1)).any fun p => shared.soloed p && shared.soloCounts p

/-- Player `p` is summed into the mix. -/
def inMix (shared : HostShared) (p : Fin (maxClients + 1)) (anySolo : Bool) : Bool :=
  !shared.muted p && (!anySolo || shared.soloed p)

end HostShared

variable {n : Nat}

/-- What one tick of the audio callback finds. -/
structure MixInput (n : Nat) where
  /-- The `active` flags as step 1 reads them. -/
  active : Fin maxClients → Bool
  /-- The atomics as the mixing finds them. -/
  shared : HostShared
  monitorGain : ℚ
  /-- The captured frame of the host. -/
  localIn : Samples n
  /-- What the playout of each client puts out, if it is active. -/
  decoded : Fin maxClients → Samples n

/-- The frames of one tick before they are clipped. -/
structure MixOutput (n : Nat) where
  /-- What is clipped and handed to the encoder of a client. -/
  clientOut : Fin maxClients → Option (Samples n)
  /-- What is clipped and handed to the sound card of the host. -/
  hostOut : Samples n

structure HostMixer (n : Nat) where
  echo : Bool
  monitor : MonitorMode
  /-- Index 0 is the host itself. -/
  smoothers : Fin (maxClients + 1) → SmoothedGain
  monitorSmoother : SmoothedGain
  decoded : Fin maxClients → Samples n
  scaled : Fin maxClients → Samples n
  scaledLocal : Samples n
  mix : Samples n
  lastActive : Fin maxClients → Bool

namespace HostMixer

def new (echo : Bool) (monitor : MonitorMode) (alpha : ℚ) : HostMixer n :=
  { echo := echo, monitor := monitor, smoothers := fun _ => SmoothedGain.new 1 alpha
    monitorSmoother := SmoothedGain.new 1 alpha, decoded := fun _ _ => 0, scaled := fun _ _ => 0
    scaledLocal := fun _ => 0, mix := fun _ => 0, lastActive := fun _ => false }

/-- Step 1: one frame per active client. -/
def pull (m : HostMixer n) (x : MixInput n) : HostMixer n :=
  { m with
    lastActive := x.active
    decoded := fun c => if x.active c then x.decoded c else fun _ => 0 }

/-- The gain target of a player, 0 when it is excluded. -/
def gainTarget (shared : HostShared) (anySolo : Bool) (p : Fin (maxClients + 1)) : ℚ :=
  shared.gains p * (if shared.inMix p anySolo then 1 else 0)

/-- Step 2 for the host itself. -/
def mixLocal (m : HostMixer n) (shared : HostShared) (anySolo : Bool) (localIn : Samples n) :
    HostMixer n :=
  let (gain, smoother) := (m.smoothers 0).next (gainTarget shared anySolo 0)
  let gLocal := gain * masterTrim
  let scaledLocal : Samples n := fun i => localIn i * gLocal
  { m with
    smoothers := Function.update m.smoothers 0 smoother
    scaledLocal := scaledLocal
    mix := fun i => 0 + scaledLocal i }

/-- Step 2 for one client. -/
def mixClient (shared : HostShared) (anySolo : Bool) (m : HostMixer n) (c : Fin maxClients) :
    HostMixer n :=
  let (gain, smoother) := (m.smoothers c.succ).next (gainTarget shared anySolo c.succ)
  let g := gain * masterTrim
  let dst : Samples n := fun i => m.decoded c i * g
  { m with
    smoothers := Function.update m.smoothers c.succ smoother
    scaled := Function.update m.scaled c dst
    mix := if m.lastActive c then fun i => m.mix i + dst i else m.mix }

def mixAll (m : HostMixer n) (shared : HostShared) (localIn : Samples n) : HostMixer n :=
  let anySolo := shared.anySolo
  (List.finRange maxClients).foldl (mixClient shared anySolo) (m.mixLocal shared anySolo localIn)

/-- Step 3 for one client, up to the clipper: mix minus self, or echo. -/
def clientFrame (m : HostMixer n) (c : Fin maxClients) : Option (Samples n) :=
  if m.lastActive c then
    some (if m.echo then m.decoded c else unmixScaled m.mix (m.scaled c) 1)
  else none

/-- Step 4, up to the clipper: what the host hears. -/
def hostFrame (m : HostMixer n) (localIn : Samples n) (monitorGain : ℚ) : Samples n × HostMixer n :=
  match m.monitor with
  | .throughMix => (m.mix, m)
  | .off => (unmixScaled m.mix m.scaledLocal 1, m)
  | .direct =>
    let (gMon, smoother) := m.monitorSmoother.next monitorGain
    (mixScaled (unmixScaled m.mix m.scaledLocal 1) localIn gMon,
      { m with monitorSmoother := smoother })

/-- One frame tick. -/
def processFrame (m : HostMixer n) (x : MixInput n) : MixOutput n × HostMixer n :=
  let m := (m.pull x).mixAll x.shared x.localIn
  let clientOut := m.clientFrame
  let (hostOut, m) := m.hostFrame x.localIn x.monitorGain
  ({ clientOut := clientOut, hostOut := hostOut }, m)

/-- The outputs of a list of ticks, and the pipeline after them. -/
def run (m : HostMixer n) : List (MixInput n) → List (MixOutput n) × HostMixer n
  | [] => ([], m)
  | x :: xs =>
    let (out, m) := m.processFrame x
    let (outs, m) := m.run xs
    (out :: outs, m)

end HostMixer

/-- What the encoder of a client is handed. -/
def MixOutput.toEncoder (out : MixOutput n) (c : Fin maxClients) : Option (Samples n) :=
  (out.clientOut c).map softClipBuf

/-- What the sound card of the host is handed. -/
def MixOutput.toHost (out : MixOutput n) : Samples n := softClipBuf out.hostOut

end OnlineJam
