import OnlineJam.Core.HostMix
import Mathlib.Algebra.BigOperators.Fin

/-!
# What a player is meant to hear

Everybody else who is there, each at the gain the user set for him, which is approached frame by frame.
-/

namespace OnlineJam

variable {n : Nat}

namespace MixInput

/-- The host is always there. -/
def present (x : MixInput n) : Fin (maxClients + 1) → Bool := Fin.cases true x.active

/-- What a player feeds into the mix. -/
def input (x : MixInput n) : Fin (maxClients + 1) → Samples n := Fin.cases x.localIn x.decoded

/-- The gain the user wants for a player: 0 when it is muted, or left out by a solo. -/
def wanted (x : MixInput n) (p : Fin (maxClients + 1)) : ℚ :=
  HostMixer.gainTarget x.shared x.shared.anySolo p

end MixInput

/-- The smoother of a player after a list of frames, each of which moved it once. -/
def smootherAfter (alpha : ℚ) (xs : List (MixInput n)) (p : Fin (maxClients + 1)) : SmoothedGain :=
  xs.foldl (fun g x => (g.next (x.wanted p)).2) (SmoothedGain.new 1 alpha)

def smoothedGain (alpha : ℚ) (xs : List (MixInput n)) (p : Fin (maxClients + 1)) : ℚ :=
  (smootherAfter alpha xs p).current

/-- The smoothed gain of the direct monitor. -/
def smoothedMonitor (alpha : ℚ) (xs : List (MixInput n)) : ℚ :=
  (xs.foldl (fun g x => (g.next x.monitorGain).2) (SmoothedGain.new 1 alpha)).current

/-- The sum of all players but one who are there, at these gains. -/
def mixWithout (x : MixInput n) (gain : Fin (maxClients + 1) → ℚ) (self : Fin (maxClients + 1)) :
    Samples n :=
  fun i => ∑ p with p ≠ self ∧ x.present p, x.input p i * gain p * masterTrim

/-- The two inputs are the same but for the decoded frame of one client. -/
structure SameBut (c : Fin maxClients) (x y : MixInput n) : Prop where
  active : x.active = y.active
  shared : x.shared = y.shared
  monitorGain : x.monitorGain = y.monitorGain
  localIn : x.localIn = y.localIn
  decoded : ∀ d, d ≠ c → x.decoded d = y.decoded d

end OnlineJam
