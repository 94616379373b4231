import OnlineJam.Core.SessionLog

/-!
# When the datagrams of a session were sent

The host and the client have a clock each. For each datagram, an observer writes down what the clock of
its sender read when it was sent. Not every thread reads its clock before it sends, but the clock goes on
all the same, so that each step of a run comes with a reading.
-/

namespace OnlineJam

open OnlineJam.Lib

/-- What the clock of the process that moves reads when it sends, where the step reads it. -/
def SessionLabel.clockUs : SessionLabel → Option Nat
  | .host (.control nowUs) => some nowUs
  | .client (.control nowUs) => some nowUs
  | .hostRecv _ _ t3Us => some t3Us
  | .strangerRecv _ _ _ t3Us => some t3Us
  | .clientRecv _ _ t3Us => some t3Us
  | _ => none

/-- A step, and the clock of the process that moves. -/
structure ClockedLabel where
  label : SessionLabel
  clockUs : Nat
  deriving DecidableEq, Repr

/-- Steps that read the clock, and others at the same time as the last of these. -/
def clocked (nowUs : Nat) : List SessionLabel → List ClockedLabel
  | [] => []
  | l :: ls =>
    let nowUs := l.clockUs.getD nowUs
    ⟨l, nowUs⟩ :: clocked nowUs ls

/-- A session, its log, and the clocks by position in `Session.net`. -/
abbrev ClockedSession := Watched × (Nat → Nat)

namespace ClockedSession

/-- A step reads no other clock than that of the process. -/
def step (cfg : SessionConfig) (w : Watched) (l : ClockedLabel) : Option Watched :=
  if l.label.clockUs.all (· = l.clockUs) then
    watch (Session.step cfg) (SessionLog.observe cfg) w l.label
  else none

/-- The position stays the next one until a datagram takes it. -/
def stamp (sentAt : Nat → Nat) (w : Watched) (l : ClockedLabel) (_ : Watched) : Nat → Nat :=
  Function.update sentAt w.1.net.length l.clockUs

abbrev Runs (cfg : SessionConfig) (c : ClockedSession → ClockedLabel → Prop) :
    List ClockedLabel → ClockedSession → Prop :=
  Steps (watch (step cfg) stamp) c ((Session.init cfg, SessionLog.new), fun _ => 0)

theorem step_eq_some {cfg : SessionConfig} {w v : Watched} {l : ClockedLabel} (h : step cfg w l = some v) :
    (∀ clockUs, l.label.clockUs = some clockUs → l.clockUs = clockUs) ∧
      watch (Session.step cfg) (SessionLog.observe cfg) w l.label = some v := by
  unfold step at h
  split at h
  · rename_i hclock
    refine ⟨fun clockUs hl => ?_, h⟩
    rw [hl] at hclock
    exact (of_decide_eq_true hclock).symm
  · cases h

/-- The clocks run at the same rate, that of the host ahead by `skewUs`, and every datagram between the two
that arrives has been on its way for `loUs` to `hiUs`. The host answers after it has received. -/
def Timely (skewUs : Int) (loUs hiUs : Nat) (w : ClockedSession) (l : ClockedLabel) : Prop :=
  match l.label with
  | .hostRecv i nowUs t3Us =>
    (loUs ≤ nowUs - skewUs - w.2 i ∧ nowUs - skewUs - w.2 i ≤ hiUs) ∧ nowUs ≤ t3Us ∧ t3Us < 2 ^ 64
  | .clientRecv i nowUs _ => loUs ≤ nowUs - (w.2 i - skewUs) ∧ nowUs - (w.2 i - skewUs) ≤ hiUs
  | .client (.control nowUs) => nowUs < 2 ^ 64
  | _ => True

instance (skewUs : Int) (loUs hiUs : Nat) (w : ClockedSession) (l : ClockedLabel) :
    Decidable (Timely skewUs loUs hiUs w l) := by
  unfold Timely
  split <;> infer_instance

/-- A timely run on given labels. -/
theorem Runs.of_test (cfg : SessionConfig) (skewUs : Int) (loUs hiUs : Nat) (ls : List ClockedLabel)
    (p : ClockedSession → Bool)
    (h : (exec (guarded (watch (step cfg) stamp) fun w l => decide (Timely skewUs loUs hiUs w l))
      ((Session.init cfg, SessionLog.new), fun _ => 0) ls).any p = true) :
    ∃ w, Runs cfg (Timely skewUs loUs hiUs) ls w ∧ p w = true :=
  Steps.of_test (fun _ _ ht => of_decide_eq_true ht) h

/-- The clocks have no influence on the session. -/
theorem Runs.session {cfg : SessionConfig} {c : ClockedSession → ClockedLabel → Prop}
    {ls : List ClockedLabel} {w : ClockedSession} (h : Runs cfg c ls w) :
    Session.Runs cfg (fun _ _ => True) (ls.map ClockedLabel.label) w.1 :=
  Steps.of_labels (fun _ _ _ hs => (step_eq_some hs).2) (Steps.of_watch h)

end ClockedSession

end OnlineJam
