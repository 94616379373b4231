import OnlineJam.Core.JoinLog
import OnlineJam.Proofs.ClientProofs

/-!
# Clients that are not Joined

What the tasks of a client's control loop say about its handshake machine, and what the client puts on the
network while the machine is not Joined: its HELLO, PONGs, and the ACK of a WELCOME that the machine is
still to be handed. Whatever else it sends tells that the machine is Joined.
-/

namespace OnlineJam

open OnlineJam.Lib

namespace Client

/-- The control loop does not run ahead of its handshake machine. -/
structure InStep (c : Client) : Prop where
  joined : c.shared.joined = true → c.cs.isJoined = true
  starts : ∀ id sessionId params, .act (.startAudio id sessionId params) ∈ c.tasks →
    c.cs.isJoined = true
  byes : .bye ∈ c.tasks → c.cs.isJoined = true
  fails : ∀ failure, .act (.failed failure) ∈ c.tasks → c.cs.isJoined = false
  acks : ∀ header sessionId, .ack header sessionId ∈ c.tasks → c.welcomeInHand = true

theorem inStep_new (cfg : ClientConfig) (startMs nowMs : Nat) : (Client.new cfg startMs nowMs).InStep where
  joined := fun h => by cases h
  starts := fun _ _ _ h => by cases List.mem_singleton.mp h
  byes := fun h => by cases List.mem_singleton.mp h
  fails := fun _ h => by cases List.mem_singleton.mp h
  acks := fun _ _ h => by cases List.mem_singleton.mp h

/-- The machine is as before, and no task is new. -/
theorem InStep.of_fewer {c c' : Client} (h : c.InStep) (hcs : c'.cs = c.cs)
    (hj : c'.shared.joined = true → c.shared.joined = true) (ht : ∀ task ∈ c'.tasks, task ∈ c.tasks)
    (hphase : c'.phase = c.phase) : c'.InStep where
  joined := fun hjoined => hcs ▸ h.joined (hj hjoined)
  starts := fun id sessionId params hmem => hcs ▸ h.starts id sessionId params (ht _ hmem)
  byes := fun hmem => hcs ▸ h.byes (ht _ hmem)
  fails := fun failure hmem => hcs ▸ h.fails failure (ht _ hmem)
  acks := by
    intro header sessionId hmem
    rw [welcomeInHand, hphase]
    exact h.acks header sessionId (ht _ hmem)

/-- The machine is as before, and the only tasks say BYE to a host that the client is Joined with. -/
theorem InStep.of_byes {c c' : Client} (h : c.InStep) (hcs : c'.cs = c.cs)
    (hj : c'.shared.joined = true → c.shared.joined = true) (ht : ∀ task ∈ c'.tasks, task = .bye)
    (hbye : .bye ∈ c'.tasks → c.shared.joined = true) : c'.InStep where
  joined := fun hjoined => hcs ▸ h.joined (hj hjoined)
  starts := fun _ _ _ hmem => by cases ht _ hmem
  byes := fun hmem => hcs ▸ h.joined (hbye hmem)
  fails := fun _ hmem => by cases ht _ hmem
  acks := fun _ _ hmem => by cases ht _ hmem

/-- A handshake that begins again finds a client that is not Joined. -/
theorem InStep.restart {c : Client} (hj : c.shared.joined = false)
    (ht : ∀ task ∈ c.tasks, (∀ header sessionId, task = .ack header sessionId → c.welcomeInHand = true) ∧
      task ≠ .bye ∧ ∀ id sessionId params, task ≠ .act (.startAudio id sessionId params)) :
    c.restart.InStep where
  joined := by
    intro (hjoined : c.shared.joined = true)
    rw [hj] at hjoined
    cases hjoined
  starts := by
    intro id sessionId params hmem
    rcases mem_restart.mp hmem with he | hmem
    · cases he
    · exact absurd rfl ((ht _ hmem).2.2 id sessionId params)
  byes := by
    intro hmem
    rcases mem_restart.mp hmem with he | hmem
    · cases he
    · exact absurd rfl (ht _ hmem).2.1
  fails := fun _ _ => rfl
  acks := by
    intro header sessionId hmem
    rcases mem_restart.mp hmem with he | hmem
    · cases he
    · exact (ht _ hmem).1 header sessionId rfl

/-! ## One phase -/

/-- A machine that is Joined stays so, and nothing fails. -/
theorem runHandshake_joined {c : Client} (control : Option Control) (hj : c.cs.isJoined = true) :
    (c.runHandshake control).cs = c.cs ∧
      ∀ failure, .act (.failed failure) ∉ (c.runHandshake control).tasks := by
  unfold ClientHandshake.isJoined at hj
  split at hj
  · rename_i id sessionId params hcs
    have hquiet : (hear c.cs control).2 = c.cs ∧ ∀ failure, .failed failure ∉ (hear c.cs control).1 := by
      cases control with
      | none => exact ⟨rfl, fun _ => List.not_mem_nil⟩
      | some control =>
        cases control <;>
          simp only [Client.hear, ClientHandshake.onControl, hcs] <;> simp
    have htick : (hear c.cs control).2.tick c.nowMs = ([], c.cs) := by
      rw [hquiet.1, ClientHandshake.tick, hcs]
    rw [runHandshake]
    dsimp only
    rw [htick]
    refine ⟨rfl, fun failure hmem => ?_⟩
    rw [List.append_nil] at hmem
    obtain ⟨action, ha, he⟩ := List.mem_map.mp hmem
    obtain rfl := ClientTask.act.inj he
    exact hquiet.2 failure ha
  · cases hj

/-- A machine that waits for a WELCOME is Joined by it. -/
theorem runHandshake_welcome {c : Client} (hj : c.cs.isJoining = true) (id sessionId : UInt16)
    (sampleRate : UInt32) (frameSamples : UInt16) (codec : Codec) (roster : List PlayerInfo) :
    (c.runHandshake (some (.welcome id sessionId sampleRate frameSamples codec roster))).cs.phase =
      .joined id sessionId ⟨sampleRate, frameSamples, codec⟩ := by
  unfold ClientHandshake.isJoining at hj
  split at hj
  · rename_i hcs
    have hear : hear c.cs (some (.welcome id sessionId sampleRate frameSamples codec roster)) =
        ([.startAudio id sessionId ⟨sampleRate, frameSamples, codec⟩, .rosterUpdate roster],
          { c.cs with phase := .joined id sessionId ⟨sampleRate, frameSamples, codec⟩ }) := by
      simp only [Client.hear, ClientHandshake.onControl, hcs]
    rw [runHandshake, hear]
    rfl
  · cases hj

/-- The handshake machine's turn. -/
theorem InStep.runHandshake {c : Client} (h : c.InStep) (hi : c.Inv) {control : Option Control}
    (hphase : c.phase = .handshake control) : (c.runHandshake control).InStep where
  joined := fun hj => by
    have hjoined := h.joined hj
    rw [(runHandshake_joined control hjoined).1]
    exact hjoined
  starts := by
    intro id sessionId params hmem
    rcases runHandshake_cases hi hphase with ⟨_, _, _, _, _, _, _, _, hcs, _⟩ | ⟨_, hno⟩
    · rw [ClientHandshake.isJoined, hcs]
    · exact absurd (.inl ⟨id, sessionId, params, hmem⟩) hno
  byes := by
    intro hmem
    obtain ⟨_, _, he⟩ := List.mem_map.mp hmem
    cases he
  fails := by
    intro failure hmem
    by_contra hj
    rcases runHandshake_cases hi hphase with ⟨_, _, _, _, _, _, _, _, _, ht⟩ | ⟨hback, _⟩
    · rw [ht] at hmem
      simp at hmem
    · rw [Bool.not_eq_false, ClientHandshake.isJoined] at hj
      split at hj
      · rename_i id sessionId params hcs
        refine (runHandshake_joined control ?_).2 failure hmem
        rw [ClientHandshake.isJoined, hback _ _ _ hcs]
      · cases hj
  acks := by
    intro header sessionId hmem
    obtain ⟨_, _, he⟩ := List.mem_map.mp hmem
    cases he

/-- Only a WELCOME gives the loop something to do when it arrives. -/
theorem dispatch_tasks {c : Client} {ev : CtrlEvent} (ht : c.tasks = []) {task : ClientTask}
    (h : task ∈ (c.dispatch ev).tasks) :
    (∃ header sessionId, task = .ack header sessionId) ∧ (c.dispatch ev).welcomeInHand = true := by
  have none : (c.dispatch ev).tasks = c.tasks → False := by
    intro he
    rw [he, ht] at h
    cases h
  cases hcontrol : ev.control with
  | welcome id sessionId sampleRate frameSamples codec roster =>
    rw [dispatch, hcontrol] at h ⊢
    exact ⟨⟨_, _, List.mem_singleton.mp h⟩, rfl⟩
  | bye =>
    refine absurd ?_ none
    rw [dispatch, hcontrol]
    dsimp only
    split <;> rfl
  | _ =>
    refine absurd ?_ none
    rw [dispatch, hcontrol]

/-- Who says BYE was Joined. -/
theorem bye_of_advance {c c' : Client} {nowUs : Nat} {out : Option Outgoing} (ht : c.tasks = [])
    (ha : c.advance nowUs = some (c', out)) (hb : .bye ∈ c'.tasks) : c.shared.joined = true := by
  have idle : .bye ∉ c.tasks := by
    rw [ht]
    exact List.not_mem_nil
  unfold advance at ha
  split at ha
  · split at ha <;> obtain ⟨rfl, -⟩ := Prod.mk.inj (Option.some.inj ha)
    · dsimp only at hb
      split at hb
      · assumption
      · cases hb
    · exact absurd hb idle
  · obtain ⟨rfl, -⟩ := Prod.mk.inj (Option.some.inj ha)
    obtain ⟨_, _, he⟩ := List.mem_map.mp hb
    cases he
  · split at ha <;> obtain ⟨rfl, -⟩ := Prod.mk.inj (Option.some.inj ha)
    · rename_i hquiet
      exact hquiet.1
    · exact absurd hb idle
  · split at ha <;> obtain ⟨rfl, -⟩ := Prod.mk.inj (Option.some.inj ha) <;> exact absurd hb idle
  · split at ha <;> obtain ⟨rfl, -⟩ := Prod.mk.inj (Option.some.inj ha) <;> exact absurd hb idle
  · cases ha
  · cases ha

theorem bye_of_wake {c : Client} {nowMs : Nat} (ht : c.tasks = []) (hb : .bye ∈ (c.wake nowMs).tasks) :
    c.shared.joined = true := by
  unfold wake at hb
  split at hb
  · obtain ⟨⟨_, _, he⟩, -⟩ := dispatch_tasks (c := { c with nowMs := nowMs, events := _ }) ht hb
    cases he
  · split at hb
    · dsimp only at hb
      split at hb
      · assumption
      · cases hb
    · dsimp only at hb
      rw [ht] at hb
      cases hb

/-! ## Steps -/

theorem InStep.step {c c' : Client} {l : ClientLabel} {out : Option Outgoing} (h : c.InStep) (hi : c.Inv)
    (hs : c.step l = some (c', out)) : c'.InStep := by
  rcases step_cases hs with ⟨nowUs, task, tasks, rfl, htasks, hp⟩ | ⟨nowUs, rfl, htasks, ha⟩ |
    ⟨nowMs, rfl, htasks, rfl, rfl⟩ | ⟨_, _, hsame, ht, hphase, _, _⟩
  · have rest : ∀ t ∈ tasks, t ∈ c.tasks := fun t ht => htasks ▸ List.mem_cons_of_mem _ ht
    have first : task ∈ c.tasks := htasks ▸ List.mem_cons_self
    have hpc := perform_cases { c with tasks := tasks } nowUs task
    rw [hp] at hpc
    rcases hpc with ⟨hsame, ht, hphase, _⟩ | ⟨id, sessionId, params, rfl, he⟩ | ⟨roster, _, he⟩ |
      ⟨failure, rfl, _, ⟨hsame, ht, hphase⟩ | he⟩
    · have ht : c'.tasks = tasks := ht
      exact h.of_fewer hsame.cs (fun hj => hsame.joined ▸ hj) (fun t hmem => rest t (ht ▸ hmem)) hphase
    · obtain ⟨rfl, -⟩ := Prod.mk.inj he
      have hjoined := h.starts id sessionId params first
      exact ⟨fun _ => hjoined, fun _ _ _ _ => hjoined, fun _ => hjoined,
        fun failure hmem => h.fails failure (rest _ hmem), fun header sid hmem => h.acks header sid (rest _ hmem)⟩
    · obtain ⟨rfl, -⟩ := Prod.mk.inj he
      exact h.of_fewer rfl id rest rfl
    · have ht : c'.tasks = tasks := ht
      exact h.of_fewer hsame.cs (fun hj => hsame.joined ▸ hj) (fun t hmem => rest t (ht ▸ hmem)) hphase
    · -- Nothing that fails was Joined.
      obtain ⟨rfl, -⟩ := Prod.mk.inj he
      have hno := h.fails failure first
      refine .restart (c := { c with tasks := tasks }) ?_ fun t hmem => ⟨?_, ?_, ?_⟩
      · by_contra hj
        rw [h.joined (Bool.not_eq_false _ ▸ hj)] at hno
        cases hno
      · rintro header sessionId rfl
        exact h.acks header sessionId (rest _ hmem)
      · rintro rfl
        rw [h.byes (rest _ hmem)] at hno
        cases hno
      · rintro id sessionId params rfl
        rw [h.starts id sessionId params (rest _ hmem)] at hno
        cases hno
  · rcases advance_cases htasks ha with ⟨control, hphase, rfl, _⟩ | ⟨deadline, _, rfl, _⟩ | ⟨hsame, ht, _⟩
    · exact h.runHandshake hi hphase
    · refine .restart rfl fun t hmem => ?_
      have hmem : t ∈ c.tasks := hmem
      rw [htasks] at hmem
      cases hmem
    · exact h.of_byes hsame.cs (fun hj => hsame.joined ▸ hj) ht (bye_of_advance htasks ha)
  · rcases wake_cases nowMs htasks with ⟨_, hsame, ht, _⟩ | ⟨ev, events, hev, hd⟩
    · exact h.of_byes hsame.cs (fun hj => hsame.joined ▸ hj) ht (bye_of_wake htasks)
    · have hw : c.wake nowMs = dispatch { c with nowMs := nowMs, events := events } ev := by
        rw [wake, hev]
      have htask : ∀ task ∈ (c.wake nowMs).tasks, (∃ header sessionId, task = .ack header sessionId) ∧
          (c.wake nowMs).welcomeInHand = true := by
        intro task hmem
        rw [hw] at hmem ⊢
        exact dispatch_tasks (c := { c with nowMs := nowMs, events := events }) htasks hmem
      refine ⟨fun hj => hd.cs ▸ h.joined (hd.joined hj), fun _ _ _ hmem => absurd hmem (hd.tasks _),
        fun hmem => ?_, fun _ hmem => absurd hmem (hd.tasks _), fun _ _ hmem => (htask _ hmem).2⟩
      obtain ⟨⟨_, _, he⟩, -⟩ := htask _ hmem
      cases he
  · exact h.of_fewer hsame.cs (fun hj => hsame.joined ▸ hj) (fun t hmem => ht ▸ hmem) hphase

theorem InStep.receive {c c' : Client} {src : SocketAddr} {bytes : Bytes} {nowUs t3Us : Nat}
    {out : Option Outgoing} (h : c.InStep) (hr : c.receive src bytes nowUs t3Us = some (c', out)) :
    c'.InStep := by
  have hrec := receive_spec hr
  exact h.of_fewer hrec.cs (fun hj => hrec.joined ▸ hj) (fun t hmem => hrec.tasks ▸ hmem) hrec.phase

/-! ## The WELCOME -/

theorem welcomeInHand_iff {c : Client} : c.welcomeInHand = true ↔
    ∃ id sessionId sampleRate frameSamples codec roster, c.phase =
      .handshake (some (.welcome id sessionId sampleRate frameSamples codec roster)) := by
  constructor
  · intro h
    unfold welcomeInHand at h
    split at h
    · rename_i control hphase
      cases control with
      | welcome => exact ⟨_, _, _, _, _, _, hphase⟩
      | _ => simp [Control.packetType] at h
    · cases h
  · rintro ⟨_, _, _, _, _, _, hphase⟩
    rw [welcomeInHand, hphase]
    rfl

/-- The machine is handed a WELCOME, or it is not Joined by the step and no WELCOME leaves the hand of the
loop. -/
theorem step_turn {c c' : Client} {l : ClientLabel} {out : Option Outgoing} (hi : c.Inv)
    (hs : c.step l = some (c', out)) :
    (∃ nowUs control, l = .control nowUs ∧ c.tasks = [] ∧ c.welcomeInHand = true ∧
      c.phase = .handshake (some control) ∧ c' = c.runHandshake (some control)) ∨
    ((c'.cs.isJoined = true → c.cs.isJoined = true) ∧
      (c.welcomeInHand = true → c'.welcomeInHand = true)) := by
  have same : c'.phase = c.phase → c.welcomeInHand = true → c'.welcomeInHand = true := by
    intro hphase h
    rwa [welcomeInHand, hphase]
  by_cases hin : c.welcomeInHand = true
  · obtain ⟨id, sessionId, sampleRate, frameSamples, codec, roster, hphase⟩ := welcomeInHand_iff.mp hin
    rcases step_cases hs with ⟨nowUs, task, tasks, rfl, htasks, hp⟩ | ⟨nowUs, rfl, htasks, ha⟩ |
      ⟨nowMs, rfl, htasks, rfl, rfl⟩ | ⟨_, _, hsame, _, hphase', _, _⟩
    · have hcs := perform_cs { c with tasks := tasks } nowUs task
      have hkeep := (perform_keeps { c with tasks := tasks } nowUs task).1
      rw [hp] at hcs hkeep
      refine .inr ⟨fun hj => ?_, same hkeep⟩
      rcases hcs with hcs | hcs
      · exact hcs ▸ hj
      · rw [ClientHandshake.isJoined, hcs] at hj
        cases hj
    · refine .inl ⟨nowUs, _, rfl, htasks, hin, hphase, ?_⟩
      rw [advance, hphase] at ha
      exact (Prod.mk.inj (Option.some.inj ha)).1.symm
    · -- The loop is not in `recv_timeout`.
      rw [step] at hs
      split at hs
      · rename_i hwait
        rw [hwait.2] at hphase
        cases hphase
      · cases hs
    · exact .inr ⟨fun hj => hsame.cs ▸ hj, same hphase'⟩
  · refine .inr ⟨fun hj => ?_, fun h => absurd h hin⟩
    rcases step_cases hs with ⟨nowUs, task, tasks, rfl, htasks, hp⟩ | ⟨nowUs, rfl, htasks, ha⟩ |
      ⟨nowMs, rfl, htasks, rfl, rfl⟩ | ⟨_, _, hsame, _⟩
    · have hcs := perform_cs { c with tasks := tasks } nowUs task
      rw [hp] at hcs
      rcases hcs with hcs | hcs
      · exact hcs ▸ hj
      · rw [ClientHandshake.isJoined, hcs] at hj
        cases hj
    · rcases advance_cases htasks ha with ⟨control, hphase, rfl, _⟩ | ⟨deadline, _, rfl, _⟩ | ⟨hsame, _⟩
      · rcases runHandshake_cases hi hphase with ⟨_, _, _, _, _, _, rfl, _⟩ | ⟨hback, _⟩
        · exact absurd (welcomeInHand_iff.mpr ⟨_, _, _, _, _, _, hphase⟩) hin
        · unfold ClientHandshake.isJoined at hj
          split at hj
          · rename_i id sessionId params hcs
            rw [ClientHandshake.isJoined, hback _ _ _ hcs]
          · cases hj
      · cases hj
      · exact hsame.cs ▸ hj
    · rcases wake_cases nowMs htasks with ⟨_, hsame, _⟩ | ⟨_, _, _, hd⟩
      · exact hsame.cs ▸ hj
      · exact hd.cs ▸ hj
    · exact hsame.cs ▸ hj

/-! ## Datagrams -/

/-- What the host may get from a client that has not been Joined. -/
def MayHaveSent (c : Client) (payload : Payload) : Prop :=
  ∃ control, payload = .control control ∧ (control.packetType = .hello ∨ control.packetType = .pong ∨
    control.packetType = .ack ∧ c.welcomeInHand = true)

theorem MayHaveSent.mono {c c' : Client} {payload : Payload} (h : c.MayHaveSent payload)
    (hin : c.welcomeInHand = true → c'.welcomeInHand = true) : c'.MayHaveSent payload := by
  obtain ⟨control, hpayload, htype⟩ := h
  exact ⟨control, hpayload, htype.imp id (.imp id fun ⟨hack, hc⟩ => ⟨hack, hin hc⟩)⟩

theorem parses_of_send {c c' : Client} {control : Control} {sessionId : UInt16} {o : Outgoing}
    (hr : control.RosterFits) (he : c.send control sessionId = (c', some o)) {header : Header}
    {payload : Payload} (hp : Parses o.bytes header payload) : payload = .control control.wire := by
  obtain ⟨-, ho⟩ := Prod.mk.inj he
  rw [← Option.some.inj ho] at hp
  exact ((parses_stampedDatagram _ _ _ hr).unique hp).2.symm

/-- A client whose machine is not Joined says HELLO, or acknowledges the WELCOME in hand. KEEPALIVEs, PINGs,
BYEs and audio are those of a client that is Joined. -/
theorem step_unjoined {c c' : Client} {l : ClientLabel} {o : Outgoing} (hi : c.Inv) (hin : c.InStep)
    (hj : c.cs.isJoined = false) (hs : c.step l = some (c', some o)) {header : Header} {payload : Payload}
    (hp : Parses o.bytes header payload) : c'.MayHaveSent payload := by
  have hshared : ¬ c.shared.joined = true := by
    intro hjoined
    rw [hin.joined hjoined] at hj
    cases hj
  rcases step_cases hs with ⟨nowUs, task, tasks, rfl, htasks, ht⟩ | ⟨nowUs, rfl, htasks, ha⟩ |
    ⟨nowMs, rfl, htasks, rfl, hout⟩ | ⟨_, _, _, _, _, _, hout⟩
  · have first : task ∈ c.tasks := htasks ▸ List.mem_cons_self
    have hphase : c'.phase = c.phase := by
      have hkeep := (perform_keeps { c with tasks := tasks } nowUs task).1
      rwa [ht] at hkeep
    cases task with
    | act action =>
      cases action with
      | send control =>
        have hhello := hi.sends control first
        refine ⟨control.wire, parses_of_send ?_ ht hp, .inl ?_⟩
        · rw [hhello]
          trivial
        · rw [control.packetType_wire, hhello]
          rfl
      | startAudio id sessionId params => cases (Prod.mk.inj ht).2
      | rosterUpdate roster => cases (Prod.mk.inj ht).2
      | failed failure => cases (Prod.mk.inj ht).2
    | ack header' sessionId =>
      have hack := hin.acks header' sessionId first
      have hfits : (Control.ack header'.seq header'.ptype.toU8).RosterFits := trivial
      have hpayload := parses_of_send hfits ht hp
      refine ⟨_, hpayload, .inr (.inr ⟨rfl, ?_⟩)⟩
      rwa [welcomeInHand, hphase]
    | bye =>
      rw [hin.byes first] at hj
      cases hj
  · unfold advance at ha
    split at ha
    · split at ha <;> cases (Prod.mk.inj (Option.some.inj ha)).2
    · cases (Prod.mk.inj (Option.some.inj ha)).2
    · split at ha <;> cases (Prod.mk.inj (Option.some.inj ha)).2
    · split at ha
      · rename_i hjoined
        exact absurd hjoined.1 hshared
      · cases (Prod.mk.inj (Option.some.inj ha)).2
    · split at ha
      · rename_i hjoined
        exact absurd hjoined.1 hshared
      · cases (Prod.mk.inj (Option.some.inj ha)).2
    · cases ha
    · cases ha
  · cases hout
  · -- Audio.
    rcases hout with hout | ⟨encoded, _, ha⟩
    · cases hout
    obtain ⟨⟨dgram, pipeline⟩, hframe, he⟩ := Option.map_eq_some_iff.mp ha
    obtain ⟨d, hd, -⟩ := Option.map_eq_some_iff.mp (Prod.mk.inj he).2
    have hsend : c.pipeline.sendFrame c.shared encoded = some (none, c.pipeline) := if_neg hshared
    rw [ClientPipeline.processFrame, hsend] at hframe
    obtain ⟨rfl, -⟩ := Prod.mk.inj (Option.some.inj hframe)
    cases hd

/-- The answer to a PING. -/
theorem receive_unjoined {c c' : Client} {src : SocketAddr} {bytes : Bytes} {nowUs t3Us : Nat}
    {o : Outgoing} (hr : c.receive src bytes nowUs t3Us = some (c', some o)) {header : Header}
    {payload : Payload} (hp : Parses o.bytes header payload) : c'.MayHaveSent payload := by
  obtain ⟨_, _, _, _, hpong⟩ := (receive_spec hr).reply o rfl
  exact ⟨_, (hpong.unique hp).2.symm, .inr (.inl rfl)⟩

end Client

end OnlineJam
