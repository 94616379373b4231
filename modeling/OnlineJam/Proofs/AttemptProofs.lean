import OnlineJam.Protocol.Handshake
import Mathlib.Data.List.Chain
import Mathlib.Data.List.Induction

/-!
# Proofs: one attempt to join

A handshake that is started once, and then ticked and given control packets in any order. What it has
emitted has one of three shapes, by its phase: HELLOs; HELLOs, one StartAudio and rosters; HELLOs and one
Failed.
-/

namespace OnlineJam

/-- A call on the client's machine after it was started. -/
inductive ClientOp where
  | tick (nowMs : Nat)
  | onControl (control : Control)
  deriving DecidableEq, Repr

namespace ClientOp

def exec (cs : ClientHandshake) : ClientOp → List ClientAction × ClientHandshake
  | tick nowMs => cs.tick nowMs
  | onControl control => cs.onControl control

/-- The clock reading of a tick; a control packet comes without one. -/
def time : ClientOp → Nat
  | tick nowMs => nowMs
  | onControl _ => 0

/-- What a WELCOME assigns that arrives while the machine is joining. -/
def accepts (cs : ClientHandshake) : ClientOp → Option (UInt16 × UInt16 × SessionParams)
  | onControl (.welcome assignedId sessionId sampleRate frameSamples codec _) =>
    match cs.phase with
    | .joining .. => some (assignedId, sessionId, ⟨sampleRate, frameSamples, codec⟩)
    | _ => none
  | _ => none

end ClientOp

namespace ClientAction

/-- A packet to the host. -/
def isSend : ClientAction → Bool
  | send _ => true
  | _ => false

/-- The attempt is over. -/
def isOutcome : ClientAction → Bool
  | startAudio .. | failed _ => true
  | _ => false

end ClientAction

/-- The machine and what it has done so far. -/
structure JoinAttempt where
  cs : ClientHandshake
  emitted : List ClientAction
  /-- The times at which HELLOs were emitted, one for each. -/
  helloMs : List Nat
  /-- What the accepted WELCOMEs assigned. -/
  accepted : List (UInt16 × UInt16 × SessionParams)

namespace JoinAttempt

def start (cs : ClientHandshake) (nowMs : Nat) : JoinAttempt :=
  { cs := (cs.start nowMs).2, emitted := (cs.start nowMs).1, helloMs := [nowMs], accepted := [] }

def apply (r : JoinAttempt) (op : ClientOp) : JoinAttempt :=
  { cs := (op.exec r.cs).2
    emitted := r.emitted ++ (op.exec r.cs).1
    helloMs := r.helloMs ++ ((op.exec r.cs).1.filter ClientAction.isSend).map fun _ => op.time
    accepted := r.accepted ++ (op.accepts r.cs).toList }

/-- A new machine, started once, after some calls. -/
def run (roomCode : Vector UInt8 roomCodeLen) (name : String) (startMs : Nat) (ops : List ClientOp) :
    JoinAttempt :=
  ops.foldl apply (start (ClientHandshake.new roomCode name) startMs)

end JoinAttempt

/-! ## One call -/

/-- What a call can do. -/
inductive ClientHandshake.Turns (cs : ClientHandshake) (op : ClientOp) : Prop
  | stays (hexec : op.exec cs = ([], cs)) (hacc : op.accepts cs = none)
  | retries {last tries nowMs : Nat} (hop : op = .tick nowMs) (hphase : cs.phase = .joining last tries)
      (hwait : last + controlRetryMs ≤ nowMs) (htries : tries < controlMaxTries)
      (hexec : op.exec cs = ([.send cs.hello], { cs with phase := .joining nowMs (tries + 1) }))
      (hacc : op.accepts cs = none)
  | fails (failure : JoinFailure) {last tries : Nat} (hphase : cs.phase = .joining last tries)
      (hexec : op.exec cs = ([.failed failure], { cs with phase := .failed failure }))
      (hacc : op.accepts cs = none)
  | joins (id session : UInt16) (params : SessionParams) (roster : List PlayerInfo) {last tries : Nat}
      (hphase : cs.phase = .joining last tries)
      (hexec : op.exec cs = ([.startAudio id session params, .rosterUpdate roster],
        { cs with phase := .joined id session params }))
      (hacc : op.accepts cs = some (id, session, params))
  | updates (roster : List PlayerInfo) {id session : UInt16} {params : SessionParams}
      (hphase : cs.phase = .joined id session params) (hexec : op.exec cs = ([.rosterUpdate roster], cs))
      (hacc : op.accepts cs = none)

theorem ClientHandshake.turns (cs : ClientHandshake) (op : ClientOp) : cs.Turns op := by
  cases op with
  | tick nowMs =>
    cases hphase : cs.phase with
    | joining last tries =>
      by_cases hwait : nowMs - last < controlRetryMs
      · refine .stays ?_ rfl
        simp only [ClientOp.exec, tick, hphase, if_pos hwait]
      · have hwait' : last + controlRetryMs ≤ nowMs := by
          unfold controlRetryMs at hwait ⊢
          omega
        by_cases htries : controlMaxTries ≤ tries
        · refine .fails .timeout hphase ?_ rfl
          simp only [ClientOp.exec, tick, hphase, if_neg hwait, if_pos htries]
        · refine .retries rfl hphase hwait' (Nat.lt_of_not_le htries) ?_ rfl
          simp only [ClientOp.exec, tick, hphase, if_neg hwait, if_neg htries]
    | _ =>
      refine .stays ?_ rfl
      simp only [ClientOp.exec, tick, hphase]
  | onControl control =>
    cases control with
    | welcome assignedId sessionId sampleRate frameSamples codec roster =>
      cases hphase : cs.phase with
      | joining last tries =>
        refine .joins assignedId sessionId ⟨sampleRate, frameSamples, codec⟩ roster hphase ?_ ?_
        · simp only [ClientOp.exec, onControl, hphase]
        · simp only [ClientOp.accepts, hphase]
      | _ =>
        refine .stays ?_ ?_
        · simp only [ClientOp.exec, onControl, hphase]
        · simp only [ClientOp.accepts, hphase]
    | deny reason =>
      cases hphase : cs.phase with
      | joining last tries =>
        refine .fails (.denied reason) hphase ?_ rfl
        simp only [ClientOp.exec, onControl, hphase]
      | _ =>
        refine .stays ?_ rfl
        simp only [ClientOp.exec, onControl, hphase]
    | roster players =>
      cases hphase : cs.phase with
      | joined id session params =>
        refine .updates players hphase ?_ rfl
        simp only [ClientOp.exec, onControl, hphase]
      | _ =>
        refine .stays ?_ rfl
        simp only [ClientOp.exec, onControl, hphase]
    | _ =>
      refine .stays ?_ rfl
      cases hphase : cs.phase <;> simp only [ClientOp.exec, onControl, hphase]

/-! ## The shape of an attempt -/

namespace JoinAttempt

/-- What has been emitted after the HELLOs, and what was accepted. -/
def Concludes (tail : List ClientAction) (accepted : List (UInt16 × UInt16 × SessionParams)) :
    ClientPhase → Prop
  | .idle => False
  | .joining _ _ => tail = [] ∧ accepted = []
  | .joined id session params => ∃ rosters : List (List PlayerInfo),
      tail = .startAudio id session params :: rosters.map .rosterUpdate ∧ accepted = [(id, session, params)]
  | .failed failure => tail = [.failed failure] ∧ accepted = []

/-- The HELLOs keep to their budget, and what follows them is right for the phase. -/
structure Sound (r : JoinAttempt) : Prop where
  tries : r.helloMs.length ≤ controlMaxTries
  spaced : r.helloMs.IsChain fun t t' => t + controlRetryMs ≤ t'
  joining : ∀ last tries, r.cs.phase = .joining last tries →
    r.helloMs.length = tries ∧ r.helloMs.getLast? = some last
  shape : ∃ hellos tail, r.emitted = hellos ++ tail ∧ (∀ act ∈ hellos, act = .send r.cs.hello) ∧
    hellos.length = r.helloMs.length ∧ Concludes tail r.accepted r.cs.phase

theorem Sound.start (cs : ClientHandshake) (nowMs : Nat) : (JoinAttempt.start cs nowMs).Sound where
  tries := Nat.le_of_ble_eq_true rfl
  spaced := List.isChain_singleton _
  joining := by
    intro last tries hphase
    cases hphase
    exact ⟨rfl, rfl⟩
  shape := ⟨[.send cs.hello], [], rfl, fun act hact => List.mem_singleton.mp hact, rfl, rfl, rfl⟩

/-- A call that emits no HELLO and leaves the phase other than joining. -/
theorem Sound.quiet {r r' : JoinAttempt} (h : r.Sound) (hhello : r'.cs.hello = r.cs.hello)
    (hms : r'.helloMs = r.helloMs) (hphase : ∀ last tries, r'.cs.phase ≠ .joining last tries)
    {actions : List ClientAction} (hemitted : r'.emitted = r.emitted ++ actions)
    (hends : ∀ tail, Concludes tail r.accepted r.cs.phase →
      Concludes (tail ++ actions) r'.accepted r'.cs.phase) : r'.Sound where
  tries := by rw [hms]; exact h.tries
  spaced := by rw [hms]; exact h.spaced
  joining := fun last tries he => absurd he (hphase last tries)
  shape := by
    obtain ⟨hellos, tail, he, hhellos, hlen, htail⟩ := h.shape
    refine ⟨hellos, tail ++ actions, ?_, ?_, ?_, hends tail htail⟩
    · rw [hemitted, he, List.append_assoc]
    · rw [hhello]
      exact hhellos
    · rw [hms]
      exact hlen

theorem Sound.apply {r : JoinAttempt} (h : r.Sound) (op : ClientOp) : (r.apply op).Sound := by
  unfold JoinAttempt.apply
  cases r.cs.turns op with
  | stays hexec hacc =>
    rw [hexec, hacc]
    simpa using h
  | @retries last tries nowMs hop hphase hwait htries hexec hacc =>
    obtain ⟨hlen, hlast⟩ := h.joining last tries hphase
    rw [hexec, hacc, hop]
    obtain ⟨hellos, tail, he, hhellos, hcount, htail⟩ := h.shape
    rw [hphase] at htail
    obtain ⟨rfl, haccepted⟩ := htail
    have hms : r.helloMs ++ ([ClientAction.send r.cs.hello].filter ClientAction.isSend).map
        (fun _ => (ClientOp.tick nowMs).time) = r.helloMs ++ [nowMs] := rfl
    refine ⟨?_, ?_, fun last' tries' hp => ?_, hellos ++ [.send r.cs.hello], [], ?_, ?_, ?_, rfl, ?_⟩
    · dsimp only
      rw [hms, List.length_append, List.length_singleton]
      omega
    · dsimp only
      rw [hms]
      refine List.isChain_append.mpr ⟨h.spaced, List.isChain_singleton _, fun x hx y hy => ?_⟩
      rw [hlast] at hx
      obtain rfl := Option.some.inj hx
      obtain rfl := Option.some.inj hy
      exact hwait
    · cases hp
      dsimp only
      rw [hms, List.length_append, List.length_singleton, hlen]
      exact ⟨rfl, List.getLast?_concat⟩
    · dsimp only
      rw [he, List.append_nil, List.append_nil]
    · intro act hact
      rcases List.mem_append.mp hact with hact | hact
      · exact hhellos act hact
      · exact List.mem_singleton.mp hact
    · dsimp only
      rw [hms, List.length_append, List.length_append, hcount]
      rfl
    · simpa using haccepted
  | fails failure hphase hexec hacc =>
    rw [hexec, hacc]
    refine h.quiet rfl (List.append_nil _) (fun _ _ he => by cases he) rfl fun tail htail => ?_
    rw [hphase] at htail
    obtain ⟨rfl, haccepted⟩ := htail
    exact ⟨rfl, by simpa using haccepted⟩
  | joins id session params roster hphase hexec hacc =>
    rw [hexec, hacc]
    refine h.quiet rfl (List.append_nil _) (fun _ _ he => by cases he) rfl fun tail htail => ?_
    rw [hphase] at htail
    obtain ⟨rfl, haccepted⟩ := htail
    exact ⟨[roster], rfl, by simp [haccepted]⟩
  | updates roster hphase hexec hacc =>
    rw [hexec, hacc]
    refine h.quiet rfl (List.append_nil _) (fun _ _ he => ?_) rfl fun tail htail => ?_
    · rw [hphase] at he
      cases he
    · dsimp only
      rw [hphase] at htail ⊢
      obtain ⟨rosters, rfl, haccepted⟩ := htail
      exact ⟨rosters ++ [roster], by simp, by simp [haccepted]⟩

theorem sound_run (roomCode : Vector UInt8 roomCodeLen) (name : String) (startMs : Nat)
    (ops : List ClientOp) : (run roomCode name startMs ops).Sound := by
  induction ops using List.reverseRecOn with
  | nil => exact Sound.start _ _
  | append_singleton ops op ih =>
    rw [run, List.foldl_append]
    exact ih.apply op

/-- After the HELLOs nothing is sent. -/
theorem Concludes.isSend {tail : List ClientAction} {accepted : List (UInt16 × UInt16 × SessionParams)}
    {phase : ClientPhase} (h : Concludes tail accepted phase) : ∀ act ∈ tail, act.isSend = false := by
  intro act hact
  cases phase with
  | idle => exact h.elim
  | joining last tries =>
    rw [h.1] at hact
    cases hact
  | failed failure =>
    rw [h.1] at hact
    rw [List.mem_singleton.mp hact]
    rfl
  | joined id session params =>
    obtain ⟨rosters, rfl, -⟩ := h
    rcases List.mem_cons.mp hact with rfl | hact
    · rfl
    · obtain ⟨players, _, rfl⟩ := List.mem_map.mp hact
      rfl

/-- Only the first action after the HELLOs ends the attempt. -/
theorem Concludes.isOutcome {tail : List ClientAction} {accepted : List (UInt16 × UInt16 × SessionParams)}
    {phase : ClientPhase} (h : Concludes tail accepted phase) :
    ∀ act ∈ tail.tail, act.isOutcome = false := by
  intro act hact
  cases phase with
  | idle => exact h.elim
  | joining last tries =>
    rw [h.1] at hact
    cases hact
  | failed failure =>
    rw [h.1] at hact
    cases hact
  | joined id session params =>
    obtain ⟨rosters, rfl, -⟩ := h
    obtain ⟨players, _, rfl⟩ := List.mem_map.mp hact
    rfl

/-- A roster comes after a start. -/
theorem Concludes.roster {tail : List ClientAction} {accepted : List (UInt16 × UInt16 × SessionParams)}
    {phase : ClientPhase} (h : Concludes tail accepted phase) {roster : List PlayerInfo}
    (hr : .rosterUpdate roster ∈ tail) : ∃ id session params rest,
      tail = .startAudio id session params :: rest := by
  cases phase with
  | idle => exact h.elim
  | joining last tries =>
    rw [h.1] at hr
    cases hr
  | failed failure =>
    rw [h.1] at hr
    cases List.mem_singleton.mp hr
  | joined id session params =>
    obtain ⟨rosters, rfl, -⟩ := h
    exact ⟨id, session, params, _, rfl⟩

end JoinAttempt

/-! ## Main result -/

/-- Over every run of an attempt: the HELLOs keep to their budget, there is one outcome at most, nothing
but rosters after it, no roster without a start, and the parameters are those of the one WELCOME that was
accepted. -/
theorem join_outcome (roomCode : Vector UInt8 roomCodeLen) (name : String) (startMs : Nat)
    (ops : List ClientOp) :
    let r := JoinAttempt.run roomCode name startMs ops
    (r.helloMs.length ≤ controlMaxTries ∧ r.emitted.countP ClientAction.isSend = r.helloMs.length ∧
      r.helloMs.IsChain fun t t' => t + controlRetryMs ≤ t') ∧
    r.emitted.countP ClientAction.isOutcome ≤ 1 ∧
    (r.emitted.Pairwise fun act act' => act.isOutcome = true → act'.isSend = false) ∧
    ((∃ act ∈ r.emitted, act.isOutcome = true) → ∀ last tries, r.cs.phase ≠ .joining last tries) ∧
    (∀ pre roster post, r.emitted = pre ++ .rosterUpdate roster :: post →
      ∃ id session params, .startAudio id session params ∈ pre) ∧
    ∀ id session params, r.cs.phase = .joined id session params → r.accepted = [(id, session, params)] := by
  intro r
  have h : r.Sound := JoinAttempt.sound_run roomCode name startMs ops
  obtain ⟨hellos, tail, hemitted, hhellos, hlen, htail⟩ := h.shape
  have hsend : ∀ act ∈ hellos, act.isSend = true ∧ act.isOutcome = false := by
    intro act hact
    rw [hhellos act hact]
    exact ⟨rfl, rfl⟩
  have hnosend := htail.isSend
  have hnooutcome := htail.isOutcome
  refine ⟨⟨h.tries, ?_, h.spaced⟩, ?_, ?_, ?_, ?_, ?_⟩
  · rw [hemitted, List.countP_append, List.countP_eq_length.mpr fun act hact => (hsend act hact).1,
      List.countP_eq_zero.mpr fun act hact => by simp [hnosend act hact], hlen]
    rfl
  · rw [hemitted, List.countP_append, List.countP_eq_zero.mpr fun act hact => by simp [(hsend act hact).2]]
    cases tail with
    | nil => simp
    | cons act rest =>
      rw [List.countP_cons, List.countP_eq_zero.mpr fun act hact => by simp [hnooutcome act hact]]
      split <;> omega
  · rw [hemitted, List.pairwise_append]
    refine ⟨List.pairwise_of_forall_mem_list fun act hact act' _ ho => ?_,
      List.pairwise_of_forall_mem_list fun act _ act' hact' _ => hnosend act' hact',
      fun act hact act' hact' _ => hnosend act' hact'⟩
    rw [(hsend act hact).2] at ho
    cases ho
  · rintro ⟨act, hact, ho⟩ last tries hphase
    rw [hphase] at htail
    rw [hemitted, htail.1, List.append_nil] at hact
    rw [(hsend act hact).2] at ho
    cases ho
  · intro pre roster post he
    rw [hemitted] at he
    rcases List.append_eq_append_iff.mp he with ⟨as, hpre, htl⟩ | ⟨as, hh, htl⟩
    · -- The roster is in the tail, which begins with the start.
      have hmem : .rosterUpdate roster ∈ tail := by simp [htl]
      obtain ⟨id, session, params, rest, hstart⟩ := htail.roster hmem
      rw [hstart] at htl
      cases as with
      | nil => cases htl
      | cons act as =>
        obtain ⟨rfl, -⟩ := List.cons.inj htl
        exact ⟨id, session, params, by rw [hpre]; simp⟩
    · cases as with
      | nil =>
        rw [List.nil_append] at htl
        have hmem : .rosterUpdate roster ∈ tail := by simp [← htl]
        obtain ⟨id, session, params, rest, hstart⟩ := htail.roster hmem
        rw [hstart] at htl
        cases htl
      | cons act as =>
        obtain ⟨rfl, -⟩ := List.cons.inj htl
        cases (hsend (.rosterUpdate roster) (by rw [hh]; simp)).1
  · intro id session params hphase
    rw [hphase] at htail
    obtain ⟨rosters, -, haccepted⟩ := htail
    exact haccepted

end OnlineJam
