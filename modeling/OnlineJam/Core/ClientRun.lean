import OnlineJam.Core.Client
import OnlineJam.Core.HostRun

/-!
# Runs of the client process

The client alone, among everything that can happen to it: the steps of its threads, datagrams from
anywhere, and the audio callback taking from the jitter buffer. An observer writes down which WELCOME was
accepted last, and whether the session was ended for good.
-/

namespace OnlineJam

open OnlineJam.Lib

/-- Something that happens to the client. -/
inductive ClientEvent where
  | step (l : ClientLabel)
  /-- A datagram reaches the socket. -/
  | recv (src : SocketAddr) (bytes : Bytes) (nowUs t3Us : Nat)
  /-- The audio callback works on the stream of the host. -/
  | read (op : JitterRead)
  deriving DecidableEq

/-- What a WELCOME says about the session. -/
def Control.params : Control → Option SessionParams
  | .welcome _ _ sampleRate frameSamples codec _ => some ⟨sampleRate, frameSamples, codec⟩
  | _ => none

def Control.isDeny : Control → Bool
  | .deny _ => true
  | _ => false

namespace Client

def next (c : Client) : ClientEvent → Option Client
  | .step l => (c.step l).map Prod.fst
  | .recv src bytes nowUs t3Us => (c.receive src bytes nowUs t3Us).map Prod.fst
  | .read op =>
    let stream := c.shared.fromHost
    some { c with shared := { c.shared with fromHost := { stream with jb := op.exec stream.jb } } }

/-- The packet this event hands to a handshake machine that waits for a WELCOME. -/
def hears (c : Client) : ClientEvent → Option Control
  | .step (.control _) =>
    match c.tasks, c.phase, c.cs.phase with
    | [], .handshake control, .joining .. => control
    | _, _, _ => none
  | _ => none

/-- The parameters of the WELCOME that is accepted. -/
def accepts (c : Client) (e : ClientEvent) : Option SessionParams := (c.hears e).bind Control.params

/-- The handshake fails because of a DENY. -/
def denied (c : Client) (e : ClientEvent) : Bool := (c.hears e).any Control.isDeny

/-- The loop takes a BYE that carries its session id. -/
def dismissed (c : Client) : ClientEvent → Bool
  | .step (.wake _) =>
    c.events.head?.any fun ev => ev.control = .bye ∧ ev.header.sessionId = c.shared.sessionId
  | _ => false

end Client

structure ClientLog where
  /-- The parameters of the WELCOME that was accepted last. -/
  accepted : Option SessionParams
  /-- The loop has acted on a BYE with its session id, or on a DENY that failed the handshake. -/
  ended : Bool

namespace ClientLog

def new : ClientLog := { accepted := none, ended := false }

def observe (g : ClientLog) (c : Client) (e : ClientEvent) (_ : Client) : ClientLog :=
  { accepted := (c.accepts e).or g.accepted, ended := g.ended || c.dismissed e || c.denied e }

end ClientLog

/-- The runs of a client from its start, each of whose steps meets a condition. -/
abbrev Client.Runs (cfg : ClientConfig) (startMs nowMs : Nat)
    (c : Client × ClientLog → ClientEvent → Prop) : List ClientEvent → Client × ClientLog → Prop :=
  Steps (watch Client.next ClientLog.observe) c (Client.new cfg startMs nowMs, ClientLog.new)

/-- A run on given events. -/
theorem Client.Runs.of_test (cfg : ClientConfig) (startMs nowMs : Nat) (es : List ClientEvent)
    (test : Client × ClientLog → ClientEvent → Bool) (p : Client × ClientLog → Bool)
    {c : Client × ClientLog → ClientEvent → Prop} (hc : ∀ w e, test w e = true → c w e)
    (h : (exec (guarded (watch Client.next ClientLog.observe) test)
      (Client.new cfg startMs nowMs, ClientLog.new) es).any p = true) :
    ∃ w, Client.Runs cfg startMs nowMs c es w ∧ p w = true := Steps.of_test hc h

/-! ## What the status should say -/

/-- The host uses another frame size or another codec. -/
def ClientConfig.Differs (cfg : ClientConfig) (params : SessionParams) : Prop :=
  params.frameSamples.toNat ≠ cfg.params.frameSamples ∨ params.codec ≠ cfg.params.codec

instance (cfg : ClientConfig) (params : SessionParams) : Decidable (cfg.Differs params) :=
  inferInstanceAs (Decidable (_ ∨ _))

def mismatchWarning (params : SessionParams) : String :=
  "parameter mismatch: host uses " ++ params.codec.debug ++ " at " ++
    toString params.frameSamples.toNat ++ " samples/frame — restart with matching --codec/--frame"

/-- The terminal status of a client that is joined with these parameters. -/
def ClientConfig.statusFor (cfg : ClientConfig) (params : SessionParams) : Option String :=
  if cfg.Differs params then some (mismatchWarning params) else none

/-- The terminal status is right for what has happened. -/
structure Client.Truthful (cfg : ClientConfig) (w : Client × ClientLog) : Prop where
  /-- Joined, it has the warning of the WELCOME accepted last, or none. -/
  status : w.1.shared.joined = true →
    ∃ params, w.2.accepted = some params ∧ w.1.terminalStatus = cfg.statusFor params
  /-- After the end there is no joining again. -/
  ended : w.2.ended = true → w.1.shared.joined = false

/-- Steps that reach neither defect: no BYE with the client's session id is taken while it is joining,
and no WELCOME with the client's own parameters is accepted after one with others. -/
def Client.Steady (w : Client × ClientLog) (e : ClientEvent) : Prop :=
  (w.1.dismissed e = true → ∀ last tries, w.1.cs.phase ≠ .joining last tries) ∧
    ∀ params, w.1.accepts e = some params → w.1.cfg.Differs params ∨
      ∀ before, w.2.accepted = some before → ¬ w.1.cfg.Differs before

/-- A test for `Steady`. -/
def Client.isSteady (w : Client × ClientLog) (e : ClientEvent) : Bool :=
  (! w.1.dismissed e || match w.1.cs.phase with
    | .joining .. => false
    | _ => true) &&
  (w.1.accepts e).all fun params => decide (w.1.cfg.Differs params) ||
    w.2.accepted.all fun before => ! decide (w.1.cfg.Differs before)

theorem Client.steady_of_test {w : Client × ClientLog} {e : ClientEvent} (h : isSteady w e = true) :
    Steady w e := by
  rw [isSteady, Bool.and_eq_true, Bool.or_eq_true] at h
  obtain ⟨hbye, hwelcome⟩ := h
  refine ⟨fun hd last tries hphase => ?_, fun params haccepts => ?_⟩
  · rw [hd, hphase] at hbye
    simp at hbye
  · rw [haccepts, Option.all_some, Bool.or_eq_true, decide_eq_true_eq] at hwelcome
    refine hwelcome.imp_right fun hbefore before hg => ?_
    rw [hg] at hbefore
    simpa using hbefore

end OnlineJam
