import OnlineJam.Core.Client
import OnlineJam.Core.SessionLog
import OnlineJam.Proofs.ControlProofs

/-!
# Client process: what its steps can do

The kinds of step of a client, and what each leaves alone.
-/

namespace OnlineJam

open OnlineJam.Lib

namespace Client

/-- The HELLO of this client. -/
def hello (c : Client) : Control :=
  .hello protocolVersion c.cfg.roomCode c.cfg.name 0b111 0b011

/-- What the properties of runs are about is the same. -/
structure Same (c c' : Client) : Prop where
  cs : c'.cs = c.cs
  joined : c'.shared.joined = c.shared.joined
  senderId : c'.shared.senderId = c.shared.senderId
  roster : c'.roster = c.roster
  lastRosterSeq : c'.lastRosterSeq = c.lastRosterSeq
  events : c'.events = c.events

/-- A control packet that a client may put on the network: its own HELLO, or none at all. -/
def Greets (c : Client) (control : Control) : Prop :=
  control = c.hello ∨ control.packetType ≠ .hello

/-- What a client may put on the network. -/
def MaySend (c : Client) (o : Outgoing) : Prop :=
  ∀ header control, Parses o.bytes header (.control control) →
    control = c.hello.wire ∨ control.packetType ≠ .hello

theorem maySend_send (c : Client) (control : Control) (sessionId : UInt16)
    (hr : control.RosterFits) (hg : c.Greets control) :
    ∀ o, (c.send control sessionId).2 = some o → c.MaySend o := by
  intro o ho header control' hp
  have hs := parses_stampedDatagram c.seq.next.1 sessionId c.shared.senderId hr
  have hb : o.bytes = stampedDatagram c.seq.next.1 control sessionId c.shared.senderId := by
    rw [← Option.some.inj ho]
  rw [hb] at hp
  obtain ⟨_, hc⟩ := hs.unique hp
  rw [← Payload.control.inj hc, control.packetType_wire]
  rcases hg with rfl | hg
  · exact .inl rfl
  · exact .inr hg

/-! ## The invariant -/

/-- What holds of the control loop between any two steps: it greets with its own HELLO only, and a
packet that waits for the handshake machine is a WELCOME or a DENY. -/
structure Inv (c : Client) : Prop where
  hello : c.cs.hello = c.hello
  sends : ∀ control, .act (.send control) ∈ c.tasks → control = c.hello
  handles : ∀ control, c.phase = .handshake (some control) →
    control.packetType = .welcome ∨ control.packetType = .deny

theorem inv_new (cfg : ClientConfig) (startMs nowMs : Nat) : (Client.new cfg startMs nowMs).Inv where
  hello := rfl
  sends := by
    intro control hc
    rw [ClientAction.send.inj (ClientTask.act.inj (List.mem_singleton.mp hc))]
    rfl
  handles := by
    intro control hc
    cases hc

/-! ## One task -/

theorem mem_restart {c : Client} {task : ClientTask} :
    task ∈ c.restart.tasks ↔ task = .act (.send c.hello) ∨ task ∈ c.tasks := List.mem_cons

/-- What executing a task does. -/
theorem perform_cases (c : Client) (nowUs : Nat) (task : ClientTask) :
    (Same c (c.perform nowUs task).1 ∧ (c.perform nowUs task).1.tasks = c.tasks ∧
      (c.perform nowUs task).1.phase = c.phase ∧
        ∀ action, task = .act action → ∃ control, action = .send control) ∨
    (∃ senderId sessionId params, task = .act (.startAudio senderId sessionId params) ∧
      c.perform nowUs task = (c.startAudio senderId sessionId params nowUs, none)) ∨
    (∃ roster, task = .act (.rosterUpdate roster) ∧
      c.perform nowUs task = ({ c with roster := roster }, none)) ∨
    (∃ failure, task = .act (.failed failure) ∧ (c.perform nowUs task).2 = none ∧
      ((Same c (c.perform nowUs task).1 ∧ (c.perform nowUs task).1.tasks = c.tasks ∧
        (c.perform nowUs task).1.phase = c.phase) ∨ c.perform nowUs task = (c.restart, none))) := by
  cases task with
  | act action =>
    cases action with
    | send control =>
      exact .inl ⟨⟨rfl, rfl, rfl, rfl, rfl, rfl⟩, rfl, rfl, fun action ha =>
        ⟨control, (ClientTask.act.inj ha).symm⟩⟩
    | startAudio senderId sessionId params => exact .inr (.inl ⟨_, _, _, rfl, rfl⟩)
    | rosterUpdate roster => exact .inr (.inr (.inl ⟨_, rfl, rfl⟩))
    | failed failure =>
      refine .inr (.inr (.inr ⟨failure, rfl, rfl, ?_⟩))
      cases failure with
      | denied reason => exact .inl ⟨⟨rfl, rfl, rfl, rfl, rfl, rfl⟩, rfl, rfl⟩
      | timeout =>
        show (Same c (c.failed .timeout) ∧ (c.failed .timeout).tasks = c.tasks ∧
            (c.failed .timeout).phase = c.phase) ∨
          (c.failed .timeout, (none : Option Outgoing)) = (c.restart, none)
        unfold failed
        simp only
        split
        · exact .inr rfl
        · exact .inl ⟨⟨rfl, rfl, rfl, rfl, rfl, rfl⟩, rfl, rfl⟩
  | ack header sessionId =>
    exact .inl ⟨⟨rfl, rfl, rfl, rfl, rfl, rfl⟩, rfl, rfl, fun action ha => by cases ha⟩
  | bye => exact .inl ⟨⟨rfl, rfl, rfl, rfl, rfl, rfl⟩, rfl, rfl, fun action ha => by cases ha⟩

/-- Tasks leave the phase and the channel alone. -/
theorem perform_keeps (c : Client) (nowUs : Nat) (task : ClientTask) :
    (c.perform nowUs task).1.phase = c.phase ∧ (c.perform nowUs task).1.events = c.events := by
  rcases perform_cases c nowUs task with ⟨hsame, _, hphase, _⟩ | ⟨_, _, _, _, he⟩ | ⟨_, _, he⟩ |
    ⟨_, _, _, ⟨hsame, _, hphase⟩ | he⟩
  · exact ⟨hphase, hsame.events⟩
  · rw [he]
    exact ⟨rfl, rfl⟩
  · rw [he]
    exact ⟨rfl, rfl⟩
  · exact ⟨hphase, hsame.events⟩
  · rw [he]
    exact ⟨rfl, rfl⟩

/-- Tasks leave the handshake machine alone unless one restarts it. -/
theorem perform_cs (c : Client) (nowUs : Nat) (task : ClientTask) :
    (c.perform nowUs task).1.cs = c.cs ∨
      (c.perform nowUs task).1.cs.phase = .joining c.nowMs 1 := by
  rcases perform_cases c nowUs task with ⟨hsame, _⟩ | ⟨_, _, _, _, he⟩ | ⟨_, _, he⟩ |
    ⟨_, _, _, ⟨hsame, _⟩ | he⟩
  · exact .inl hsame.cs
  · rw [he]
    exact .inl rfl
  · rw [he]
    exact .inl rfl
  · exact .inl hsame.cs
  · rw [he]
    exact .inr rfl

/-! ## One phase -/

/-- What a phase of the loop does when no task is left: the handshake machine's turn, a rejoin, or
nothing the properties are about. -/
theorem advance_cases {c c' : Client} {nowUs : Nat} {out : Option Outgoing} (ht : c.tasks = [])
    (ha : c.advance nowUs = some (c', out)) :
    (∃ control, c.phase = .handshake control ∧ c' = c.runHandshake control ∧ out = none) ∨
    (∃ deadline, c.shared.joined = true ∧
      c' = restart { c.leave with rejoinDeadline := deadline, phase := .pings } ∧ out = none) ∨
    (Same c c' ∧ (∀ task ∈ c'.tasks, task = .bye) ∧ ∀ control, c'.phase ≠ .handshake control) := by
  have idle : ∀ task ∈ c.tasks, task = .bye := by
    intro task htask
    rw [ht] at htask
    cases htask
  have byes : ∀ tasks : List ClientTask, tasks = [.bye, .bye] →
      ∀ task ∈ (if c.shared.joined then tasks else []), task = ClientTask.bye := by
    rintro tasks rfl task htask
    split at htask
    · simpa using htask
    · cases htask
  unfold advance at ha
  split at ha
  · split at ha <;> obtain ⟨rfl, rfl⟩ := Prod.mk.inj (Option.some.inj ha)
    · exact .inr (.inr ⟨⟨rfl, rfl, rfl, rfl, rfl, rfl⟩, byes _ rfl, fun control h => by cases h⟩)
    · exact .inr (.inr ⟨⟨rfl, rfl, rfl, rfl, rfl, rfl⟩, idle, fun control h => by cases h⟩)
  · rename_i control hphase
    obtain ⟨rfl, rfl⟩ := Prod.mk.inj (Option.some.inj ha)
    exact .inl ⟨control, hphase, rfl, rfl⟩
  · split at ha <;> obtain ⟨rfl, rfl⟩ := Prod.mk.inj (Option.some.inj ha)
    · rename_i hquiet
      exact .inr (.inl ⟨_, hquiet.1, rfl, rfl⟩)
    · exact .inr (.inr ⟨⟨rfl, rfl, rfl, rfl, rfl, rfl⟩, idle, fun control h => by cases h⟩)
  · split at ha <;> obtain ⟨rfl, rfl⟩ := Prod.mk.inj (Option.some.inj ha) <;>
      exact .inr (.inr ⟨⟨rfl, rfl, rfl, rfl, rfl, rfl⟩, idle, fun control h => by cases h⟩)
  · split at ha <;> obtain ⟨rfl, rfl⟩ := Prod.mk.inj (Option.some.inj ha) <;>
      exact .inr (.inr ⟨⟨rfl, rfl, rfl, rfl, rfl, rfl⟩, idle, fun control h => by cases h⟩)
  · cases ha
  · cases ha

/-! ## One event -/

/-- What the dispatch of an event does. -/
structure Dispatched (c : Client) (ev : CtrlEvent) (c' : Client) : Prop where
  cs : c'.cs = c.cs
  senderId : c'.shared.senderId = c.shared.senderId
  joined : c'.shared.joined = true → c.shared.joined = true
  events : c'.events = c.events
  tasks : ∀ action, .act action ∉ c'.tasks
  phase : ∀ control, c'.phase = .handshake (some control) →
    control = ev.control ∧ (control.packetType = .welcome ∨ control.packetType = .deny)
  roster : ∀ players, ev.control = .roster players →
    c'.lastRosterSeq = (acceptControlSeq c.lastRosterSeq ev.header.seq).2 ∧
      c'.roster = if (acceptControlSeq c.lastRosterSeq ev.header.seq).1 then players else c.roster
  other : (∀ players, ev.control ≠ .roster players) →
    c'.lastRosterSeq = c.lastRosterSeq ∧ c'.roster = c.roster

theorem dispatch_spec {c : Client} (ev : CtrlEvent) (ht : c.tasks = []) :
    Dispatched c ev (c.dispatch ev) := by
  have idle : ∀ action, ClientTask.act action ∉ c.tasks := by
    intro action
    rw [ht]
    exact List.not_mem_nil
  -- Everything but a WELCOME, a DENY and a ROSTER.
  have plain : ∀ c' : Client, c'.cs = c.cs → c'.shared.senderId = c.shared.senderId →
      (c'.shared.joined = true → c.shared.joined = true) → c'.events = c.events →
      c'.tasks = c.tasks → c'.phase = .handshake none → c'.lastRosterSeq = c.lastRosterSeq →
      c'.roster = c.roster → (∀ players, ev.control ≠ .roster players) → Dispatched c ev c' := by
    intro c' hcs hsender hj hev htasks hphase hlast hroster hne
    refine ⟨hcs, hsender, hj, hev, ?_, ?_, fun players h => absurd h (hne players), fun _ => ⟨hlast, hroster⟩⟩
    · rw [htasks]
      exact idle
    · intro control h
      rw [hphase] at h
      cases h
  -- A packet that is kept for the handshake machine.
  have handed : ∀ (tasks : List ClientTask), (∀ action, ClientTask.act action ∉ tasks) →
      (∀ players, ev.control ≠ .roster players) →
      (ev.control.packetType = .welcome ∨ ev.control.packetType = .deny) →
      Dispatched c ev { c with tasks := tasks, phase := .handshake (some ev.control) } := by
    intro tasks htasks hne htype
    refine ⟨rfl, rfl, fun h => h, rfl, htasks, fun control h => ?_, fun players h => absurd h (hne players),
      fun _ => ⟨rfl, rfl⟩⟩
    rw [← Option.some.inj (ClientLoop.handshake.inj h)]
    exact ⟨rfl, htype⟩
  cases h : ev.control with
  | welcome assignedId sessionId sampleRate frameSamples codec roster =>
    have hd := handed [.ack ev.header sessionId] (fun action ha => by simp at ha)
      (fun players hr => by rw [h] at hr; cases hr) (.inl (by rw [h]; rfl))
    rw [dispatch, h]
    rwa [h] at hd
  | deny reason =>
    have hd := handed c.tasks idle (fun players hr => by rw [h] at hr; cases hr) (.inr (by rw [h]; rfl))
    rw [dispatch, h]
    rwa [h] at hd
  | roster players =>
    rw [dispatch, h]
    refine ⟨rfl, rfl, fun h => h, rfl, idle, fun control hp => (by cases hp), fun players' hr => ?_,
      fun hne => absurd h (hne players)⟩
    rw [h] at hr
    rw [← Control.roster.inj hr]
    exact ⟨rfl, rfl⟩
  | bye =>
    have hne : ∀ players, ev.control ≠ .roster players := fun players hr => by rw [h] at hr; cases hr
    rw [dispatch, h]
    dsimp only
    split
    · exact plain _ rfl rfl (fun hj => by cases hj) rfl rfl rfl rfl rfl hne
    · exact plain _ rfl rfl (fun h => h) rfl rfl rfl rfl rfl hne
  | _ =>
    rw [dispatch, h]
    exact plain _ rfl rfl (fun h => h) rfl rfl rfl rfl rfl fun players hr => by rw [h] at hr; cases hr

/-- What `recv_timeout` hands to the loop. -/
theorem wake_cases {c : Client} (nowMs : Nat) (ht : c.tasks = []) :
    (c.events = [] ∧ Same c (c.wake nowMs) ∧ (∀ task ∈ (c.wake nowMs).tasks, task = .bye) ∧
      ∀ control, (c.wake nowMs).phase ≠ .handshake (some control)) ∨
    ∃ ev events, c.events = ev :: events ∧
      Dispatched { c with nowMs := nowMs, events := events } ev (c.wake nowMs) := by
  cases he : c.events with
  | cons ev events =>
    refine .inr ⟨ev, events, rfl, ?_⟩
    rw [wake, he]
    exact dispatch_spec (c := { c with nowMs := nowMs, events := events }) ev ht
  | nil =>
    left
    have hw : c.wake nowMs = if c.rxStopped then
        { c with phase := .stopped, tasks := if c.shared.joined then [.bye] else [] }
        else { c with nowMs := nowMs, phase := .handshake none } := by
      rw [wake, he]
    rw [hw]
    split
    · refine ⟨rfl, ⟨rfl, rfl, rfl, rfl, rfl, rfl⟩, fun task htask => ?_, fun control h => by cases h⟩
      dsimp only at htask
      split at htask
      · simpa using htask
      · cases htask
    · refine ⟨rfl, ⟨rfl, rfl, rfl, rfl, rfl, rfl⟩, fun task htask => ?_, fun control h => by cases h⟩
      dsimp only at htask
      rw [ht] at htask
      cases htask

/-! ## Steps -/

/-- The kinds of step. The audio callback and the shutdown flag are on the side. -/
theorem step_cases {c c' : Client} {l : ClientLabel} {o : Option Outgoing}
    (hs : c.step l = some (c', o)) :
    (∃ nowUs task tasks, l = .control nowUs ∧ c.tasks = task :: tasks ∧
      perform { c with tasks := tasks } nowUs task = (c', o)) ∨
    (∃ nowUs, l = .control nowUs ∧ c.tasks = [] ∧ c.advance nowUs = some (c', o)) ∨
    (∃ nowMs, l = .wake nowMs ∧ c.tasks = [] ∧ c' = c.wake nowMs ∧ o = none) ∨
    ((∀ nowUs, l ≠ .control nowUs) ∧ (∀ nowMs, l ≠ .wake nowMs) ∧ Same c c' ∧ c'.tasks = c.tasks ∧
      c'.phase = c.phase ∧ c'.cfg = c.cfg ∧
      (o = none ∨ ∃ encoded, l = .audio encoded ∧ c.audio encoded = some (c', o))) := by
  cases l with
  | control nowUs =>
    rw [step] at hs
    split at hs
    · rename_i task tasks htasks
      exact .inl ⟨nowUs, task, tasks, rfl, htasks, Option.some.inj hs⟩
    · rename_i htasks
      exact .inr (.inl ⟨nowUs, rfl, htasks, hs⟩)
  | wake nowMs =>
    rw [step] at hs
    split at hs
    · rename_i hw
      obtain ⟨rfl, rfl⟩ := Prod.mk.inj (Option.some.inj hs)
      exact .inr (.inr (.inl ⟨nowMs, rfl, hw.1, rfl, rfl⟩))
    · cases hs
  | audio encoded =>
    obtain ⟨⟨dgram, pipeline⟩, hp, he⟩ := Option.map_eq_some_iff.mp hs
    obtain ⟨rfl, rfl⟩ := Prod.mk.inj he
    exact .inr (.inr (.inr ⟨fun _ h => (by cases h), fun _ h => (by cases h),
      ⟨rfl, rfl, rfl, rfl, rfl, rfl⟩, rfl, rfl, rfl, .inr ⟨encoded, rfl, hs⟩⟩))
  | rxStop =>
    rw [step] at hs
    split at hs
    · obtain ⟨rfl, rfl⟩ := Prod.mk.inj (Option.some.inj hs)
      exact .inr (.inr (.inr ⟨fun _ h => (by cases h), fun _ h => (by cases h),
        ⟨rfl, rfl, rfl, rfl, rfl, rfl⟩, rfl, rfl, rfl, .inl rfl⟩))
    · cases hs
  | shutdown =>
    obtain ⟨rfl, rfl⟩ := Prod.mk.inj (Option.some.inj hs)
    exact .inr (.inr (.inr ⟨fun _ h => (by cases h), fun _ h => (by cases h),
      ⟨rfl, rfl, rfl, rfl, rfl, rfl⟩, rfl, rfl, rfl, .inl rfl⟩))

theorem perform_cfg (c : Client) (nowUs : Nat) (task : ClientTask) :
    (c.perform nowUs task).1.cfg = c.cfg := by
  cases task with
  | act action =>
    cases action with
    | failed failure =>
      show (c.failed failure).cfg = c.cfg
      unfold failed
      split
      · rfl
      · dsimp only
        split <;> rfl
    | _ => rfl
  | _ => rfl

theorem dispatch_cfg (c : Client) (ev : CtrlEvent) : (c.dispatch ev).cfg = c.cfg := by
  rw [dispatch]
  cases ev.control with
  | bye =>
    dsimp only
    split <;> rfl
  | _ => rfl

theorem wake_cfg (c : Client) (nowMs : Nat) : (c.wake nowMs).cfg = c.cfg := by
  unfold wake
  split
  · rw [dispatch_cfg]
  · split <;> rfl

/-- No phase changes the configuration or the terminal status. -/
theorem advance_keeps {c c' : Client} {nowUs : Nat} {out : Option Outgoing}
    (ha : c.advance nowUs = some (c', out)) : c'.cfg = c.cfg ∧ c'.terminalStatus = c.terminalStatus := by
  unfold advance at ha
  split at ha
  · split at ha <;> obtain ⟨rfl, rfl⟩ := Prod.mk.inj (Option.some.inj ha) <;> exact ⟨rfl, rfl⟩
  · obtain ⟨rfl, rfl⟩ := Prod.mk.inj (Option.some.inj ha)
    exact ⟨rfl, rfl⟩
  · split at ha <;> obtain ⟨rfl, rfl⟩ := Prod.mk.inj (Option.some.inj ha) <;> exact ⟨rfl, rfl⟩
  · split at ha <;> obtain ⟨rfl, rfl⟩ := Prod.mk.inj (Option.some.inj ha) <;> exact ⟨rfl, rfl⟩
  · split at ha <;> obtain ⟨rfl, rfl⟩ := Prod.mk.inj (Option.some.inj ha) <;> exact ⟨rfl, rfl⟩
  · cases ha
  · cases ha

theorem step_cfg {c c' : Client} {l : ClientLabel} {out : Option Outgoing}
    (hs : c.step l = some (c', out)) : c'.cfg = c.cfg := by
  rcases step_cases hs with ⟨nowUs, task, tasks, _, _, hp⟩ | ⟨_, _, _, ha⟩ | ⟨nowMs, _, _, rfl, _⟩ |
    ⟨_, _, _, _, _, hcfg, _⟩
  · have h := perform_cfg { c with tasks := tasks } nowUs task
    rwa [hp] at h
  · exact (advance_keeps ha).1
  · exact wake_cfg c nowMs
  · exact hcfg

theorem onControl_hello (cs : ClientHandshake) (control : Control) :
    (cs.onControl control).2.hello = cs.hello ∧
      ∀ control', .send control' ∉ (cs.onControl control).1 := by
  unfold ClientHandshake.onControl
  split <;> exact ⟨rfl, fun control' h => by simp at h⟩

theorem tick_hello (cs : ClientHandshake) (nowMs : Nat) :
    (cs.tick nowMs).2.hello = cs.hello ∧
      ∀ control, .send control ∈ (cs.tick nowMs).1 → control = cs.hello := by
  unfold ClientHandshake.tick
  split
  · split
    · exact ⟨rfl, fun control h => by simp at h⟩
    split
    · exact ⟨rfl, fun control h => by simp at h⟩
    · exact ⟨rfl, fun control h => ClientAction.send.inj (List.mem_singleton.mp h)⟩
  · exact ⟨rfl, fun control h => by simp at h⟩

theorem hear_hello (cs : ClientHandshake) (control : Option Control) :
    (hear cs control).2.hello = cs.hello ∧ ∀ control', .send control' ∉ (hear cs control).1 := by
  cases control with
  | some control => exact onControl_hello cs control
  | none => exact ⟨rfl, fun _ => List.not_mem_nil⟩

theorem runHandshake_hello (c : Client) (control : Option Control) :
    (c.runHandshake control).cs.hello = c.cs.hello ∧
      ∀ control', .act (.send control') ∈ (c.runHandshake control).tasks → control' = c.cs.hello := by
  obtain ⟨hhello, hsend⟩ := hear_hello c.cs control
  obtain ⟨hhello', hsend'⟩ := tick_hello (hear c.cs control).2 c.nowMs
  refine ⟨hhello'.trans hhello, fun control' hc => ?_⟩
  obtain ⟨action, ha, hact⟩ := List.mem_map.mp hc
  obtain rfl := ClientTask.act.inj hact
  rcases List.mem_append.mp ha with ha | ha
  · exact absurd ha (hsend control')
  · rw [hsend' control' ha, hhello]

theorem inv_step {c c' : Client} {l : ClientLabel} {out : Option Outgoing} (hi : c.Inv)
    (hs : c.step l = some (c', out)) : c'.Inv := by
  have hcfg := step_cfg hs
  have hh : c'.hello = c.hello := by
    rw [hello, hcfg, hello]
  -- What `restart` leaves behind, whatever tasks were left.
  have restarted : ∀ r : Client, r.cfg = c.cfg → (∀ task ∈ r.tasks, task ∈ c.tasks) →
      (∀ control, r.phase = .handshake (some control) → c.phase = .handshake (some control)) →
      r.restart.Inv := by
    intro r hr ht hphase
    have hhello : r.restart.hello = c.hello := by
      rw [hello, hello]
      show Control.hello _ r.cfg.roomCode r.cfg.name _ _ = _
      rw [hr]
    refine ⟨?_, ?_, fun control h => hi.handles control (hphase control h)⟩
    · show Control.hello _ r.cfg.roomCode r.cfg.name _ _ = _
      rfl
    · intro control hc
      rcases mem_restart.mp hc with hc | hc
      · rw [ClientAction.send.inj (ClientTask.act.inj hc)]
        rfl
      · exact (hi.sends control (ht _ hc)).trans hhello.symm
  -- The machine is untouched, and no task or phase is new.
  have kept : c'.cs = c.cs → (∀ task ∈ c'.tasks, task ∈ c.tasks) → c'.phase = c.phase → c'.Inv := by
    intro hcs ht hphase
    refine ⟨by rw [hcs, hh]; exact hi.hello, fun control hc => ?_, fun control h => ?_⟩
    · rw [hh]
      exact hi.sends control (ht _ hc)
    · rw [hphase] at h
      exact hi.handles control h
  rcases step_cases hs with ⟨nowUs, task, tasks, rfl, htasks, hp⟩ | ⟨nowUs, rfl, htasks, ha⟩ |
    ⟨nowMs, rfl, htasks, rfl, rfl⟩ | ⟨_, _, hsame, ht, hphase, _, _⟩
  · have rest : ∀ t ∈ tasks, t ∈ c.tasks := fun t ht => by
      rw [htasks]
      exact List.mem_cons_of_mem _ ht
    have hpc := perform_cases { c with tasks := tasks } nowUs task
    rw [hp] at hpc
    rcases hpc with ⟨hsame, ht, hphase, _⟩ | ⟨id, sid, params, _, he⟩ | ⟨roster, _, he⟩ |
      ⟨failure, _, _, ⟨hsame, ht, hphase⟩ | he⟩
    · refine kept hsame.cs (fun t h => rest t ?_) hphase
      rw [ht] at h
      exact h
    · obtain ⟨rfl, rfl⟩ := Prod.mk.inj he
      exact ⟨hi.hello, fun control hc => hi.sends control (rest _ hc), hi.handles⟩
    · obtain ⟨rfl, rfl⟩ := Prod.mk.inj he
      exact ⟨hi.hello, fun control hc => hi.sends control (rest _ hc), hi.handles⟩
    · refine kept hsame.cs (fun t h => rest t ?_) hphase
      rw [ht] at h
      exact h
    · obtain ⟨rfl, rfl⟩ := Prod.mk.inj he
      exact restarted { c with tasks := tasks } rfl rest fun control h => h
  · rcases advance_cases htasks ha with ⟨control, _, rfl, _⟩ | ⟨deadline, _, rfl, _⟩ |
      ⟨hsame, ht, hphase⟩
    · obtain ⟨hhello, hsend⟩ := runHandshake_hello c control
      refine ⟨by rw [hhello, hh]; exact hi.hello, fun control' hc => ?_, fun control' h => by cases h⟩
      rw [hsend control' hc, hh]
      exact hi.hello
    · exact restarted _ rfl (fun t h => h) fun control h => by cases h
    · refine ⟨by rw [hsame.cs, hh]; exact hi.hello, fun control hc => ?_,
        fun control h => absurd h (hphase _)⟩
      cases ht _ hc
  · rcases wake_cases nowMs htasks with ⟨_, hsame, ht, hphase⟩ | ⟨ev, events, _, hd⟩
    · refine ⟨by rw [hsame.cs, hh]; exact hi.hello, fun control hc => ?_,
        fun control h => absurd h (hphase _)⟩
      cases ht _ hc
    · exact ⟨by rw [hd.cs, hh]; exact hi.hello, fun control hc => absurd hc (hd.tasks _),
        fun control h => (hd.phase control h).2⟩
  · refine kept hsame.cs (fun t h => ?_) hphase
    rw [ht] at h
    exact h

/-- A client puts no HELLO on the network but its own. -/
theorem step_maySend {c c' : Client} {l : ClientLabel} {o : Outgoing} (hi : c.Inv)
    (hs : c.step l = some (c', some o)) : c.MaySend o := by
  rcases step_cases hs with ⟨nowUs, task, tasks, rfl, htasks, hp⟩ | ⟨nowUs, rfl, htasks, ha⟩ |
    ⟨nowMs, rfl, htasks, rfl, hout⟩ | ⟨_, _, _, _, _, _, hout⟩
  · have hpost : ∀ control sessionId, control.RosterFits → c.Greets control →
        send { c with tasks := tasks } control sessionId = (c', some o) → c.MaySend o := by
      intro control sessionId hr hg he
      exact maySend_send { c with tasks := tasks } control sessionId hr hg o (by rw [he])
    cases task with
    | act action =>
      cases action with
      | send control =>
        have hc := hi.sends control (by rw [htasks]; exact List.mem_cons_self)
        exact hpost control _ (by rw [hc]; trivial) (.inl hc) hp
      | startAudio senderId sessionId params => cases (Prod.mk.inj hp).2
      | rosterUpdate roster => cases (Prod.mk.inj hp).2
      | failed failure => cases (Prod.mk.inj hp).2
    | ack header sessionId =>
      exact hpost (.ack header.seq header.ptype.toU8) sessionId trivial
        (.inr (by simp [Control.packetType])) hp
    | bye => exact hpost .bye _ trivial (.inr (by simp [Control.packetType])) hp
  · unfold advance at ha
    split at ha
    · split at ha <;> cases (Prod.mk.inj (Option.some.inj ha)).2
    · cases (Prod.mk.inj (Option.some.inj ha)).2
    · split at ha <;> cases (Prod.mk.inj (Option.some.inj ha)).2
    · split at ha
      · exact maySend_send { c with lastPing := c.nowMs, phase := .keepalives }
          (.ping (UInt64.ofNat nowUs)) c.shared.sessionId trivial
          (.inr (by simp [Control.packetType])) o (by rw [Option.some.inj ha])
      · cases (Prod.mk.inj (Option.some.inj ha)).2
    · split at ha
      · exact maySend_send { c with lastKeepalive := c.nowMs, phase := .check }
          .keepalive c.shared.sessionId trivial
          (.inr (by simp [Control.packetType])) o (by rw [Option.some.inj ha])
      · cases (Prod.mk.inj (Option.some.inj ha)).2
    · cases ha
    · cases ha
  · cases hout
  · rcases hout with hout | ⟨encoded, _, ha⟩
    · cases hout
    obtain ⟨⟨dgram, pipeline⟩, hp, he⟩ := Option.map_eq_some_iff.mp ha
    obtain ⟨d, hd, rfl⟩ := Option.map_eq_some_iff.mp (Prod.mk.inj he).2
    rw [hd] at hp
    exact fun header control hparse =>
      absurd hparse (ClientPipeline.noControl_processFrame hp header control)

/-- Only `recv_timeout` takes events out of the channel. -/
theorem step_events {c c' : Client} {l : ClientLabel} {o : Option Outgoing}
    (hs : c.step l = some (c', o)) (hl : ∀ nowMs, l ≠ .wake nowMs) : c'.events = c.events := by
  rcases step_cases hs with ⟨nowUs, task, tasks, _, _, hp⟩ | ⟨_, _, htasks, ha⟩ | ⟨nowMs, h, _⟩ |
    ⟨_, _, hsame, _⟩
  · have he := (perform_keeps { c with tasks := tasks } nowUs task).2
    rwa [hp] at he
  · rcases advance_cases htasks ha with ⟨control, _, rfl, _⟩ | ⟨deadline, _, rfl, _⟩ | ⟨hsame, _⟩
    · rfl
    · rfl
    · exact hsame.events
  · exact absurd h (hl nowMs)
  · exact hsame.events

/-! ## Joining -/

/-- The tasks of a join are still to be executed. -/
def Joining (c : Client) : Prop :=
  (∃ senderId sessionId params, .act (.startAudio senderId sessionId params) ∈ c.tasks) ∨
    ∃ roster, .act (.rosterUpdate roster) ∈ c.tasks

/-- The clock alone joins nobody. -/
theorem tick_quiet (cs : ClientHandshake) (nowMs : Nat) :
    (∀ id sessionId params, (cs.tick nowMs).2.phase = .joined id sessionId params →
      cs.phase = .joined id sessionId params) ∧
    ∀ action ∈ (cs.tick nowMs).1, (∃ control, action = .send control) ∨
      ∃ failure, action = .failed failure := by
  unfold ClientHandshake.tick
  split
  · split
    · exact ⟨fun _ _ _ h => h, fun action ha => by cases ha⟩
    split
    · exact ⟨fun _ _ _ h => (by cases h), fun action ha => .inr ⟨_, List.mem_singleton.mp ha⟩⟩
    · exact ⟨fun _ _ _ h => (by cases h), fun action ha => .inl ⟨_, List.mem_singleton.mp ha⟩⟩
  · exact ⟨fun _ _ _ h => h, fun action ha => by cases ha⟩

/-- A packet that is not a WELCOME for a machine that waits for one joins nobody either. -/
theorem runHandshake_quiet {c : Client} {control : Option Control}
    {heard : List ClientAction × ClientHandshake} (hheard : Client.hear c.cs control = heard)
    (hj : ∀ id sessionId params, heard.2.phase = .joined id sessionId params →
      c.cs.phase = .joined id sessionId params)
    (ha : ∀ action ∈ heard.1, ∃ failure, action = .failed failure) :
    (∀ id sessionId params, (c.runHandshake control).cs.phase = .joined id sessionId params →
      c.cs.phase = .joined id sessionId params) ∧ ¬ (c.runHandshake control).Joining := by
  subst hheard
  obtain ⟨htj, hta⟩ := tick_quiet (Client.hear c.cs control).2 c.nowMs
  have hmem : ∀ action, ClientTask.act action ∈ (c.runHandshake control).tasks →
      (∃ control, action = .send control) ∨ ∃ failure, action = .failed failure := by
    intro action hmem
    obtain ⟨action', hmem', hact⟩ := List.mem_map.mp hmem
    obtain rfl := ClientTask.act.inj hact
    rcases List.mem_append.mp hmem' with hmem' | hmem'
    · exact .inr (ha _ hmem')
    · exact hta _ hmem'
  refine ⟨fun id sessionId params h => hj _ _ _ (htj _ _ _ h), ?_⟩
  rintro (⟨_, _, _, h⟩ | ⟨_, h⟩)
  · rcases hmem _ h with ⟨_, h⟩ | ⟨_, h⟩ <;> cases h
  · rcases hmem _ h with ⟨_, h⟩ | ⟨_, h⟩ <;> cases h

/-- The handshake machine is Joined by a WELCOME it was waiting for, or it is Joined as before if at
all. -/
theorem runHandshake_cases {c : Client} (hi : c.Inv) {control : Option Control}
    (hphase : c.phase = .handshake control) :
    (∃ id sessionId sampleRate frameSamples codec roster,
      control = some (.welcome id sessionId sampleRate frameSamples codec roster) ∧
      c.cs.isJoined = false ∧
      (c.runHandshake control).cs.phase = .joined id sessionId ⟨sampleRate, frameSamples, codec⟩ ∧
      (c.runHandshake control).tasks =
        [.act (.startAudio id sessionId ⟨sampleRate, frameSamples, codec⟩),
          .act (.rosterUpdate roster)]) ∨
    ((∀ id sessionId params, (c.runHandshake control).cs.phase = .joined id sessionId params →
        c.cs.phase = .joined id sessionId params) ∧ ¬ (c.runHandshake control).Joining) := by
  have nothing : Client.hear c.cs control = ([], c.cs) →
      (∀ id sessionId params, (c.runHandshake control).cs.phase = .joined id sessionId params →
        c.cs.phase = .joined id sessionId params) ∧ ¬ (c.runHandshake control).Joining :=
    fun hear => runHandshake_quiet hear (fun _ _ _ h => h) fun action ha => by cases ha
  cases control with
  | none => exact .inr (nothing rfl)
  | some control =>
    have htype := hi.handles control hphase
    cases hcs : c.cs.phase with
    | joining lastTxMs tries =>
      cases control with
      | welcome id sessionId sampleRate frameSamples codec roster =>
        left
        have hear : Client.hear c.cs (some (.welcome id sessionId sampleRate frameSamples codec roster)) =
            ([.startAudio id sessionId ⟨sampleRate, frameSamples, codec⟩, .rosterUpdate roster],
              { c.cs with phase := .joined id sessionId ⟨sampleRate, frameSamples, codec⟩ }) := by
          simp only [Client.hear, ClientHandshake.onControl, hcs]
        refine ⟨id, sessionId, sampleRate, frameSamples, codec, roster, rfl, ?_, ?_, ?_⟩
        · rw [ClientHandshake.isJoined, hcs]
        · rw [runHandshake, hear]
          rfl
        · rw [runHandshake, hear]
          rfl
      | deny reason =>
        have hear : Client.hear c.cs (some (.deny reason)) =
            ([.failed (.denied reason)], { c.cs with phase := .failed (.denied reason) }) := by
          simp only [Client.hear, ClientHandshake.onControl, hcs]
        rw [← hcs]
        exact .inr (runHandshake_quiet hear (fun _ _ _ h => (by cases h))
          fun action ha => ⟨_, List.mem_singleton.mp ha⟩)
      | _ => rcases htype with htype | htype <;> cases htype
    | joined id sessionId params =>
      have hear : Client.hear c.cs (some control) = ([], c.cs) := by
        cases control with
        | roster players => rcases htype with htype | htype <;> cases htype
        | _ => simp only [Client.hear, ClientHandshake.onControl, hcs]
      rw [← hcs]
      exact .inr (nothing hear)
    | _ =>
      have hear : Client.hear c.cs (some control) = ([], c.cs) := by
        simp only [Client.hear, ClientHandshake.onControl, hcs]
      rw [← hcs]
      exact .inr (nothing hear)

/-! ## Datagrams -/

/-- What the arrival of a datagram leaves alone. It is answered by a PONG if at all, and the host's
control packets go to the control loop. -/
structure Received (c : Client) (src : SocketAddr) (bytes : Bytes) (c' : Client)
    (out : Option Outgoing) : Prop where
  cfg : c'.cfg = c.cfg
  cs : c'.cs = c.cs
  joined : c'.shared.joined = c.shared.joined
  senderId : c'.shared.senderId = c.shared.senderId
  roster : c'.roster = c.roster
  lastRosterSeq : c'.lastRosterSeq = c.lastRosterSeq
  tasks : c'.tasks = c.tasks
  phase : c'.phase = c.phase
  reply : ∀ o, out = some o → ∃ header t1Us t2Us t3Us,
    Parses o.bytes header (.control (.pong t1Us t2Us t3Us))
  event : (c'.events = c.events ∧
      (c'.shared.fromHost.lastRxUs ≠ c.shared.fromHost.lastRxUs → src = c.cfg.hostAddr)) ∨
    ∃ header control rxUs, src = c.cfg.hostAddr ∧ Parses bytes header (.control control) ∧
      c'.events = c.events ++ [⟨src, header, control, rxUs⟩]

theorem receive_spec {c c' : Client} {src : SocketAddr} {bytes : Bytes} {nowUs t3Us : Nat}
    {o : Option Outgoing} (hr : c.receive src bytes nowUs t3Us = some (c', o)) :
    Received c src bytes c' o := by
  unfold receive at hr
  split at hr
  · cases hr
  obtain ⟨rfl, rfl⟩ := Prod.mk.inj (Option.some.inj hr)
  have ignored : Received c src bytes { c with rx := c.rx, events := c.events ++ [] } none :=
    ⟨rfl, rfl, rfl, rfl, rfl, rfl, rfl, rfl, fun o ho => (by cases ho),
      .inl ⟨List.append_nil _, fun h => absurd rfl h⟩⟩
  unfold routeClient
  split
  · -- A PING.
    rename_i header t1Us _
    refine ⟨rfl, rfl, rfl, rfl, rfl, rfl, rfl, rfl, fun o ho => ?_,
      .inl ⟨List.append_nil _, fun h => absurd rfl h⟩⟩
    obtain ⟨b, hb, rfl⟩ := Option.map_eq_some_iff.mp ho
    obtain ⟨b', hb', hp⟩ := parses_pongReply header c.shared.senderId t1Us nowUs t3Us
    rw [hb'] at hb
    rw [← Option.some.inj hb]
    exact ⟨_, _, _, _, hp⟩
  · -- Audio.
    split
    · exact ignored
    · rename_i hacc
      refine ⟨rfl, rfl, rfl, rfl, rfl, rfl, rfl, rfl, fun o ho => (by cases ho),
        .inl ⟨List.append_nil _, fun _ => ?_⟩⟩
      by_contra hne
      exact hacc (.inl hne)
  · -- Control.
    rename_i header control _ hp
    split
    · exact ignored
    · rename_i hsrc
      exact ⟨rfl, rfl, rfl, rfl, rfl, rfl, rfl, rfl, fun o ho => (by cases ho),
        .inr ⟨header, control, nowUs, not_not.mp hsrc, hp, rfl⟩⟩
  · exact ignored

/-- Only what comes from the host refreshes `lastRxUs`. -/
theorem src_of_refreshes {c : Client} {e : Envelope} (h : c.refreshes e = true) :
    e.src = c.cfg.hostAddr := by
  rw [refreshes, Option.any_eq_true] at h
  obtain ⟨⟨c', out⟩, hr, hlast⟩ := h
  rcases (receive_spec hr).event with ⟨_, hsrc⟩ | ⟨_, _, _, hsrc, _⟩
  · refine hsrc fun hsame => ?_
    have hl := of_decide_eq_true hlast
    dsimp only at hl
    omega
  · exact hsrc

/-- What goes to the control loop refreshes `lastRxUs`. -/
theorem refreshes_of_event {c c' : Client} {e : Envelope} {nowUs t3Us : Nat} {o : Option Outgoing}
    (hr : c.receive e.src e.bytes nowUs t3Us = some (c', o)) (hne : c'.events ≠ c.events) :
    c.refreshes e = true := by
  unfold receive at hr
  split at hr
  · cases hr
  rename_i hstop
  obtain ⟨rfl, rfl⟩ := Prod.mk.inj (Option.some.inj hr)
  unfold routeClient at hne
  split at hne
  · exact absurd (List.append_nil _) hne
  · split at hne <;> exact absurd (List.append_nil _) hne
  · rename_i header control hping hp
    split at hne
    · exact absurd (List.append_nil _) hne
    · rename_i hsrc
      rw [refreshes, receive, if_neg hstop, Option.any_some, decide_eq_true_iff]
      unfold routeClient
      rw [hp]
      cases control with
      | ping t1Us => exact absurd rfl (hping t1Us)
      | _ =>
        dsimp only
        rw [if_neg hsrc]
  · exact absurd (List.append_nil _) hne

end Client

end OnlineJam
