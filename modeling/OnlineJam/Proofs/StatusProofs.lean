import OnlineJam.Core.Scenario
import OnlineJam.Proofs.AttemptProofs
import OnlineJam.Proofs.ClientProofs

/-!
# Proofs: the terminal status of a client

The status, the joined flag, the handshake machine and the tasks of the control loop together are in one
of five standings. In a steady run the status that is owed to the last WELCOME is there from the moment
audio starts, and the last standing is never left.
-/

namespace OnlineJam

open OnlineJam.Lib

/-- Neither starts audio nor reports a failure. -/
def ClientTask.plain : ClientTask → Bool
  | .act (.startAudio ..) | .act (.failed _) => false
  | _ => true

/-- The terminal status that the WELCOMEs so far have left. -/
def ClientLog.owed (g : ClientLog) (cfg : ClientConfig) : Option String := g.accepted.bind cfg.statusFor

namespace Client

/-! ## What steps leave alone -/

/-- What the standing is about is the same, the tasks apart. -/
structure Even (c c' : Client) : Prop where
  cfg : c'.cfg = c.cfg
  cs : c'.cs = c.cs
  joined : c'.shared.joined = c.shared.joined
  status : c'.terminalStatus = c.terminalStatus

theorem perform_plain {task : ClientTask} (h : task.plain = true) (c : Client) (nowUs : Nat) :
    Even c (c.perform nowUs task).1 ∧ (c.perform nowUs task).1.tasks = c.tasks := by
  cases task with
  | act action =>
    cases action with
    | startAudio senderId sessionId params => cases h
    | failed failure => cases h
    | _ => exact ⟨⟨rfl, rfl, rfl, rfl⟩, rfl⟩
  | _ => exact ⟨⟨rfl, rfl, rfl, rfl⟩, rfl⟩

/-- A BYE with the session id ends the joining; nothing else that is taken changes flag or status. -/
theorem dispatch_status (c : Client) (ev : CtrlEvent) :
    if ev.control = .bye ∧ ev.header.sessionId = c.shared.sessionId then
      (c.dispatch ev).shared.joined = false
    else (c.dispatch ev).shared.joined = c.shared.joined ∧
      (c.dispatch ev).terminalStatus = c.terminalStatus := by
  rw [dispatch]
  cases ev.control with
  | bye =>
    dsimp only
    by_cases hs : ev.header.sessionId = c.shared.sessionId
    · rw [if_pos ⟨rfl, hs⟩, if_pos hs]
      rfl
    · rw [if_neg fun h => hs h.2, if_neg hs]
      exact ⟨rfl, rfl⟩
  | _ =>
    rw [if_neg fun h => by cases h.1]
    exact ⟨rfl, rfl⟩

theorem wake_status (c : Client) (nowMs : Nat) :
    if c.dismissed (.step (.wake nowMs)) = true then (c.wake nowMs).shared.joined = false
    else (c.wake nowMs).shared.joined = c.shared.joined ∧
      (c.wake nowMs).terminalStatus = c.terminalStatus := by
  rw [wake, dismissed]
  cases c.events with
  | nil =>
    rw [if_neg (by simp)]
    dsimp only
    split <;> exact ⟨rfl, rfl⟩
  | cons ev events =>
    have h := dispatch_status { c with nowMs := nowMs, events := events } ev
    simp only [List.head?_cons, Option.any_some, decide_eq_true_eq]
    exact h

theorem wake_tasks {c : Client} (nowMs : Nat) (ht : c.tasks = []) :
    (c.wake nowMs).cs = c.cs ∧ ∀ task ∈ (c.wake nowMs).tasks, task.plain = true := by
  rcases wake_cases nowMs ht with ⟨_, hsame, hbye, _⟩ | ⟨ev, events, _, hd⟩
  · refine ⟨hsame.cs, fun task h => ?_⟩
    rw [hbye task h]
    rfl
  · refine ⟨hd.cs, fun task h => ?_⟩
    cases task with
    | act action => exact absurd h (hd.tasks action)
    | _ => rfl

end Client

/-! ## The handshake machine's turn -/

theorem ClientHandshake.turn_settled {cs : ClientHandshake}
    (hcs : ∀ last tries, cs.phase ≠ .joining last tries) (op : ClientOp) :
    (op.exec cs).2 = cs ∧ ∀ action ∈ (op.exec cs).1, ∃ roster, action = .rosterUpdate roster := by
  cases cs.turns op with
  | stays hexec => rw [hexec]; exact ⟨rfl, fun action ha => by cases ha⟩
  | retries _ hphase => exact absurd hphase (hcs _ _)
  | fails _ hphase => exact absurd hphase (hcs _ _)
  | joins _ _ _ _ hphase => exact absurd hphase (hcs _ _)
  | updates roster _ hexec => rw [hexec]; exact ⟨rfl, fun action ha => ⟨roster, List.mem_singleton.mp ha⟩⟩

theorem ClientHandshake.tick_joining {cs : ClientHandshake} {last tries : Nat}
    (hcs : cs.phase = .joining last tries) (nowMs : Nat) :
    ((∃ last tries, (cs.tick nowMs).2.phase = .joining last tries) ∧
      ∀ action ∈ (cs.tick nowMs).1, ∃ control, action = .send control) ∨
    (cs.tick nowMs).2.phase = .failed .timeout ∧ (cs.tick nowMs).1 = [.failed .timeout] := by
  rw [tick, hcs]
  dsimp only
  split
  · exact .inl ⟨⟨last, tries, hcs⟩, fun action ha => by cases ha⟩
  · split
    · exact .inr ⟨rfl, rfl⟩
    · exact .inl ⟨⟨nowMs, tries + 1, rfl⟩, fun action ha => ⟨_, List.mem_singleton.mp ha⟩⟩

namespace Client

/-- A machine that does not wait for a WELCOME says at most that the roster changed. -/
theorem runHandshake_settled {c : Client} (hcs : ∀ last tries, c.cs.phase ≠ .joining last tries)
    (control : Option Control) :
    (c.runHandshake control).cs = c.cs ∧ ∀ task ∈ (c.runHandshake control).tasks, task.plain = true := by
  have hheard : (hear c.cs control).2 = c.cs ∧
      ∀ action ∈ (hear c.cs control).1, ∃ roster, action = .rosterUpdate roster := by
    cases control with
    | none => exact ⟨rfl, fun action ha => by cases ha⟩
    | some control => exact ClientHandshake.turn_settled hcs (.onControl control)
  have htimed := ClientHandshake.turn_settled hcs (.tick c.nowMs)
  rw [runHandshake, hheard.1]
  refine ⟨htimed.1, fun task htask => ?_⟩
  obtain ⟨action, ha, rfl⟩ := List.mem_map.mp htask
  obtain ⟨roster, rfl⟩ : ∃ roster, action = .rosterUpdate roster := by
    rcases List.mem_append.mp ha with ha | ha
    · exact hheard.2 action ha
    · exact htimed.2 action ha
  rfl

/-- What a machine that waits for a WELCOME makes of the packet and of the clock. -/
theorem runHandshake_joining {c : Client} {last tries : Nat} (hcs : c.cs.phase = .joining last tries)
    (control : Option Control) :
    (∃ id sessionId params roster, control.bind Control.params = some params ∧
      control.any Control.isDeny = false ∧
      (c.runHandshake control).cs.phase = .joined id sessionId params ∧
      (c.runHandshake control).tasks =
        [.act (.startAudio id sessionId params), .act (.rosterUpdate roster)]) ∨
    (∃ reason, control.any Control.isDeny = true ∧ control.bind Control.params = none ∧
      (c.runHandshake control).cs.phase = .failed (.denied reason) ∧
      (c.runHandshake control).tasks = [.act (.failed (.denied reason))]) ∨
    (control.bind Control.params = none ∧ control.any Control.isDeny = false ∧
      ((∃ last tries, (c.runHandshake control).cs.phase = .joining last tries) ∧
          (∀ task ∈ (c.runHandshake control).tasks, task.plain = true) ∨
        (c.runHandshake control).cs.phase = .failed .timeout ∧
          (c.runHandshake control).tasks = [.act (.failed .timeout)])) := by
  -- Nothing to hear, so that only the clock counts.
  have clock : hear c.cs control = ([], c.cs) →
      (∃ last tries, (c.runHandshake control).cs.phase = .joining last tries) ∧
          (∀ task ∈ (c.runHandshake control).tasks, task.plain = true) ∨
        (c.runHandshake control).cs.phase = .failed .timeout ∧
          (c.runHandshake control).tasks = [.act (.failed .timeout)] := by
    intro hheard
    rw [runHandshake, hheard]
    rcases ClientHandshake.tick_joining hcs c.nowMs with ⟨hphase, hsend⟩ | ⟨hphase, hfailed⟩
    · refine .inl ⟨hphase, fun task htask => ?_⟩
      obtain ⟨action, ha, rfl⟩ := List.mem_map.mp htask
      obtain ⟨control, rfl⟩ := hsend action ha
      rfl
    · refine .inr ⟨hphase, ?_⟩
      dsimp only
      rw [hfailed]
      rfl
  cases control with
  | none => exact .inr (.inr ⟨rfl, rfl, clock rfl⟩)
  | some control =>
    cases control with
    | welcome id sessionId sampleRate frameSamples codec roster =>
      have hheard : hear c.cs (some (.welcome id sessionId sampleRate frameSamples codec roster)) =
          ([.startAudio id sessionId ⟨sampleRate, frameSamples, codec⟩, .rosterUpdate roster],
            { c.cs with phase := .joined id sessionId ⟨sampleRate, frameSamples, codec⟩ }) := by
        simp only [hear, ClientHandshake.onControl, hcs]
      rw [runHandshake, hheard]
      exact .inl ⟨id, sessionId, ⟨sampleRate, frameSamples, codec⟩, roster, rfl, rfl, rfl, rfl⟩
    | deny reason =>
      have hheard : hear c.cs (some (.deny reason)) =
          ([.failed (.denied reason)], { c.cs with phase := .failed (.denied reason) }) := by
        simp only [hear, ClientHandshake.onControl, hcs]
      rw [runHandshake, hheard]
      exact .inr (.inl ⟨reason, rfl, rfl, rfl, rfl⟩)
    | _ =>
      refine .inr (.inr ⟨rfl, rfl, clock ?_⟩)
      simp only [hear, ClientHandshake.onControl, hcs]

end Client

/-! ## Standings -/

/-- Where a client stands. -/
inductive Standing (c : Client) (g : ClientLog) : Prop
  /-- It waits for a WELCOME. -/
  | joining {last tries : Nat} (hcs : c.cs.phase = .joining last tries) (hj : c.shared.joined = false)
      (hs : c.terminalStatus = g.owed c.cfg) (he : g.ended = false)
      (ht : ∀ task ∈ c.tasks, task.plain = true)
  /-- It has accepted a WELCOME and is about to start audio. -/
  | accepted {id sessionId : UInt16} {params : SessionParams} {roster : List PlayerInfo}
      (hcs : c.cs.phase = .joined id sessionId params) (hj : c.shared.joined = false)
      (hg : g.accepted = some params) (hs : c.cfg.Differs params ∨ c.terminalStatus = none)
      (he : g.ended = false)
      (ht : c.tasks = [.act (.startAudio id sessionId params), .act (.rosterUpdate roster)])
  | joined {id sessionId : UInt16} {params : SessionParams}
      (hcs : c.cs.phase = .joined id sessionId params) (hg : g.accepted = some params)
      (hs : c.terminalStatus = g.owed c.cfg) (he : g.ended = false)
      (ht : ∀ task ∈ c.tasks, task.plain = true)
  /-- The handshake timed out and may be begun again. -/
  | timedOut (hcs : c.cs.phase = .failed .timeout) (hj : c.shared.joined = false)
      (hs : c.terminalStatus = g.owed c.cfg) (he : g.ended = false)
      (ht : c.tasks = [.act (.failed .timeout)])
  /-- It will not join again. -/
  | gone (hcs : ∀ last tries, c.cs.phase ≠ .joining last tries) (hj : c.shared.joined = false)
      (ht : ∀ task ∈ c.tasks, task.plain = true ∨ ∃ reason, task = .act (.failed (.denied reason)))

section Standing

variable {c c' : Client} {g : ClientLog}

theorem Standing.same (h : Standing c g) (he : c.Even c') (ht : c'.tasks = c.tasks) : Standing c' g := by
  obtain ⟨hcfg, hcs', hj', hs'⟩ := he
  cases h with
  | joining hcs hj hs hended htasks =>
    exact .joining (hcs' ▸ hcs) (hj'.trans hj) (by rw [hs', hcfg, hs]) hended (by rwa [ht])
  | accepted hcs hj hg hs hended htasks =>
    exact .accepted (hcs' ▸ hcs) (hj'.trans hj) hg (by rwa [hs', hcfg]) hended (ht.trans htasks)
  | joined hcs hg hs hended htasks =>
    exact .joined (hcs' ▸ hcs) hg (by rw [hs', hcfg, hs]) hended (by rwa [ht])
  | timedOut hcs hj hs hended htasks =>
    exact .timedOut (hcs' ▸ hcs) (hj'.trans hj) (by rw [hs', hcfg, hs]) hended (ht.trans htasks)
  | gone hcs hj htasks => exact .gone (by rwa [hcs']) (hj'.trans hj) (by rwa [ht])

/-- Where no task of a join or of a failure is next, plain tasks do not count. -/
theorem Standing.quiet (h : Standing c g) (he : c.Even c')
    (hhead : ∀ task ∈ c.tasks.head?, task.plain = true)
    (ht : ∀ task ∈ c'.tasks, task.plain = true ∨ task ∈ c.tasks) : Standing c' g := by
  obtain ⟨hcfg, hcs', hj', hs'⟩ := he
  have plain : (∀ task ∈ c.tasks, task.plain = true) → ∀ task ∈ c'.tasks, task.plain = true :=
    fun htasks task htask => (ht task htask).elim id (htasks task)
  cases h with
  | joining hcs hj hs hended htasks =>
    exact .joining (hcs' ▸ hcs) (hj'.trans hj) (by rw [hs', hcfg, hs]) hended (plain htasks)
  | accepted hcs hj hg hs hended htasks =>
    rw [htasks] at hhead
    cases hhead _ rfl
  | joined hcs hg hs hended htasks =>
    exact .joined (hcs' ▸ hcs) hg (by rw [hs', hcfg, hs]) hended (plain htasks)
  | timedOut hcs hj hs hended htasks =>
    rw [htasks] at hhead
    cases hhead _ rfl
  | gone hcs hj htasks =>
    exact .gone (by rwa [hcs']) (hj'.trans hj) fun task htask => (ht task htask).elim .inl (htasks task)

theorem Standing.perform (h : Standing c g) (nowUs : Nat) {task : ClientTask} {tasks : List ClientTask}
    (ht : c.tasks = task :: tasks) :
    Standing (Client.perform { c with tasks := tasks } nowUs task).1 g := by
  by_cases hplain : task.plain = true
  · obtain ⟨⟨hcfg, hcs, hj, hs⟩, htasks⟩ := Client.perform_plain hplain { c with tasks := tasks } nowUs
    refine h.quiet ⟨hcfg, hcs, hj, hs⟩ ?_ ?_
    · rw [ht]
      rintro _ ⟨⟩
      exact hplain
    · intro task' htask'
      rw [htasks] at htask'
      rw [ht]
      exact .inr (List.mem_cons_of_mem _ htask')
  have hmem : task ∈ c.tasks := ht ▸ List.mem_cons_self
  cases h with
  | joining hcs hj hs hended htasks => exact absurd (htasks task hmem) hplain
  | joined hcs hg hs hended htasks => exact absurd (htasks task hmem) hplain
  | accepted hcs hj hg hs hended htasks =>
    rename_i id sessionId params roster
    obtain ⟨rfl, rfl⟩ := List.cons.inj (ht.symm.trans htasks)
    refine .joined hcs hg ?_ hended fun task htask => ?_
    · show (if c.cfg.Differs params then some (mismatchWarning params) else c.terminalStatus) =
        g.owed c.cfg
      rw [ClientLog.owed, hg, Option.bind_some, ClientConfig.statusFor]
      rcases hs with hdiffers | hnone
      · rw [if_pos hdiffers, if_pos hdiffers]
      · rw [hnone]
    · rw [List.mem_singleton.mp htask]
      rfl
  | timedOut hcs hj hs hended htasks =>
    obtain ⟨rfl, rfl⟩ := List.cons.inj (ht.symm.trans htasks)
    show Standing (Client.failed { c with tasks := [] } .timeout) g
    rw [Client.failed]
    dsimp only
    split
    · refine .joining (show _ = ClientPhase.joining c.nowMs 1 from rfl) hj hs hended fun task htask => ?_
      rw [List.mem_singleton.mp htask]
      rfl
    · refine .gone (fun last tries hphase => ?_) hj fun task htask => by cases htask
      cases hcs.symm.trans hphase
  | gone hcs hj htasks =>
    obtain ⟨reason, rfl⟩ := (htasks task hmem).resolve_left hplain
    exact .gone hcs hj fun task htask => htasks task (ht ▸ List.mem_cons_of_mem _ htask)

/-! ## Steps -/

theorem Client.hears_control {last tries : Nat} (nowUs : Nat) {control : Option Control}
    (ht : c.tasks = []) (hphase : c.phase = .handshake control) (hcs : c.cs.phase = .joining last tries) :
    c.hears (.step (.control nowUs)) = control := by
  rw [hears, ht, hphase, hcs]

theorem Client.hears_eq_none (h : ∀ control last tries, c.tasks = [] → c.phase = .handshake control →
    c.cs.phase ≠ .joining last tries) (e : ClientEvent) : c.hears e = none := by
  unfold hears
  split
  · split
    · rename_i ht hphase hcs
      exact absurd hcs (h _ _ _ ht hphase)
    · rfl
  · rfl

/-- Nothing to write down. -/
theorem ClientLog.observe_eq {e : ClientEvent} (haccepts : c.accepts e = none)
    (hdenied : c.denied e = false) (hdismissed : c.dismissed e = false) : g.observe c e c' = g := by
  rw [observe, haccepts, hdenied, hdismissed, Option.none_or, Bool.or_false, Bool.or_false]

theorem ClientLog.observe_unheard {e : ClientEvent} (hhears : c.hears e = none)
    (hdismissed : c.dismissed e = false) : g.observe c e c' = g := by
  refine observe_eq ?_ ?_ hdismissed
  · rw [Client.accepts, hhears, Option.bind_none]
  · rw [Client.denied, hhears, Option.any_none]

theorem Standing.handshake (h : Standing c g) (nowUs : Nat) {control : Option Control} (ht : c.tasks = [])
    (hphase : c.phase = .handshake control) (hsteady : Client.Steady (c, g) (.step (.control nowUs))) :
    Standing (c.runHandshake control) (g.observe c (.step (.control nowUs)) (c.runHandshake control)) := by
  -- A machine that waits for nothing.
  have settled : (∀ last tries, c.cs.phase ≠ .joining last tries) →
      Standing (c.runHandshake control)
        (g.observe c (.step (.control nowUs)) (c.runHandshake control)) := by
    intro hcs
    obtain ⟨hcs', htasks⟩ := Client.runHandshake_settled hcs control
    rw [ClientLog.observe_unheard (Client.hears_eq_none (fun _ last tries _ _ => hcs last tries) _) rfl]
    refine h.quiet ⟨rfl, hcs', rfl, rfl⟩ (fun task htask => ?_) fun task htask => .inl (htasks task htask)
    rw [ht] at htask
    cases htask
  cases h with
  | joining hcs hj hs hended _ =>
    have hhears := Client.hears_control nowUs ht hphase hcs
    rcases Client.runHandshake_joining hcs control with
      ⟨id, sessionId, params, roster, hparams, hdeny, hcs', htasks⟩ |
      ⟨reason, hdeny, hparams, hcs', htasks⟩ | ⟨hparams, hdeny, hclock⟩
    · have haccepts : c.accepts (.step (.control nowUs)) = some params := by
        rw [Client.accepts, hhears, hparams]
      refine .accepted hcs' hj ?_ ?_ ?_ htasks
      · rw [ClientLog.observe, haccepts, Option.some_or]
      · refine (hsteady.2 params haccepts).imp_right fun hbefore => ?_
        show c.terminalStatus = none
        rw [hs, ClientLog.owed, Option.bind_eq_none_iff]
        intro before hg
        rw [ClientConfig.statusFor, if_neg (hbefore before hg)]
      · rw [ClientLog.observe, Client.denied, hhears, hended, hdeny]
        rfl
    · refine .gone (fun last tries hphase => ?_) hj fun task htask => ?_
      · cases hcs'.symm.trans hphase
      · rw [htasks] at htask
        exact .inr ⟨reason, List.mem_singleton.mp htask⟩
    · have haccepts : c.accepts (.step (.control nowUs)) = none := by
        rw [Client.accepts, hhears, hparams]
      have hdenied : c.denied (.step (.control nowUs)) = false := by
        rw [Client.denied, hhears, hdeny]
      rw [ClientLog.observe_eq haccepts hdenied rfl]
      rcases hclock with ⟨⟨last', tries', hcs'⟩, htasks⟩ | ⟨hcs', htasks⟩
      · exact .joining hcs' hj hs hended htasks
      · exact .timedOut hcs' hj hs hended htasks
  | accepted _ _ _ _ _ htasks =>
    rw [ht] at htasks
    cases htasks
  | joined hcs _ _ _ _ => exact settled fun last tries hphase => by cases hcs.symm.trans hphase
  | timedOut _ _ _ _ htasks =>
    rw [ht] at htasks
    cases htasks
  | gone hcs _ _ => exact settled hcs

theorem Standing.advance (h : Standing c g) {nowUs : Nat} {out : Option Outgoing} (ht : c.tasks = [])
    (ha : c.advance nowUs = some (c', out)) (hsteady : Client.Steady (c, g) (.step (.control nowUs))) :
    Standing c' (g.observe c (.step (.control nowUs)) c') := by
  by_cases hphase : ∃ control, c.phase = .handshake control
  · obtain ⟨control, hphase⟩ := hphase
    rw [Client.advance, hphase] at ha
    obtain ⟨rfl, _⟩ := Prod.mk.inj (Option.some.inj ha)
    exact h.handshake nowUs ht hphase hsteady
  · have hphase' := not_exists.mp hphase
    have hunheard := Client.hears_eq_none (fun control _ _ _ hc => absurd hc (hphase' control))
      (.step (.control nowUs))
    rw [ClientLog.observe_unheard hunheard rfl]
    obtain ⟨hcfg, hs'⟩ := Client.advance_keeps ha
    rcases Client.advance_cases ht ha with ⟨control, hc, _⟩ | ⟨deadline, hj', rfl, _⟩ | ⟨hsame, hbye, _⟩
    · exact absurd hc (hphase' control)
    · -- The host went quiet.
      cases h with
      | joining _ hj _ _ _ => cases hj.symm.trans hj'
      | accepted _ _ _ _ _ htasks =>
        rw [ht] at htasks
        cases htasks
      | joined _ _ hs hended htasks =>
        refine .joining (show _ = ClientPhase.joining c.nowMs 1 from rfl) rfl hs hended fun task htask => ?_
        rcases Client.mem_restart.mp htask with rfl | htask
        · rfl
        · exact htasks task htask
      | timedOut _ hj _ _ _ => cases hj.symm.trans hj'
      | gone _ hj _ => cases hj.symm.trans hj'
    · refine h.quiet ⟨hcfg, hsame.cs, hsame.joined, hs'⟩ (fun task htask => ?_) fun task htask => .inl ?_
      · rw [ht] at htask
        cases htask
      · rw [hbye task htask]
        rfl

theorem Standing.wake (h : Standing c g) (nowMs : Nat) (ht : c.tasks = [])
    (hsteady : Client.Steady (c, g) (.step (.wake nowMs))) :
    Standing (c.wake nowMs) (g.observe c (.step (.wake nowMs)) (c.wake nowMs)) := by
  obtain ⟨hcs', htasks⟩ := Client.wake_tasks nowMs ht
  have hstatus := Client.wake_status c nowMs
  by_cases hd : c.dismissed (.step (.wake nowMs)) = true
  · rw [if_pos hd] at hstatus
    exact .gone (by rw [hcs']; exact hsteady.1 hd) hstatus fun task htask => .inl (htasks task htask)
  · rw [if_neg hd] at hstatus
    rw [ClientLog.observe_unheard rfl (Bool.not_eq_true _ ▸ hd)]
    refine h.quiet ⟨Client.wake_cfg c nowMs, hcs', hstatus.1, hstatus.2⟩ (fun task htask => ?_)
      fun task htask => .inl (htasks task htask)
    rw [ht] at htask
    cases htask

theorem Standing.next {e : ClientEvent} (h : Standing c g) (hsteady : Client.Steady (c, g) e)
    (hn : c.next e = some c') : Standing c' (g.observe c e c') := by
  cases e with
  | step l =>
    obtain ⟨⟨c', out⟩, hs, rfl⟩ := Option.map_eq_some_iff.mp hn
    cases l with
    | control nowUs =>
      rw [Client.step] at hs
      split at hs
      · rename_i task tasks htasks
        have hbusy : c.tasks ≠ [] := by
          rw [htasks]
          exact List.cons_ne_nil _ _
        rw [ClientLog.observe_unheard (Client.hears_eq_none (fun _ _ _ ht => absurd ht hbusy) _) rfl]
        have hp := h.perform nowUs htasks
        rwa [Option.some.inj hs] at hp
      · rename_i htasks
        exact h.advance htasks hs hsteady
    | wake nowMs =>
      rw [Client.step] at hs
      split at hs
      · rename_i hw
        obtain ⟨rfl, rfl⟩ := Prod.mk.inj (Option.some.inj hs)
        exact h.wake nowMs hw.1 hsteady
      · cases hs
    | audio encoded =>
      obtain ⟨⟨dgram, pipeline⟩, _, he⟩ := Option.map_eq_some_iff.mp hs
      obtain ⟨rfl, rfl⟩ := Prod.mk.inj he
      rw [ClientLog.observe_unheard rfl rfl]
      exact h.same ⟨rfl, rfl, rfl, rfl⟩ rfl
    | rxStop =>
      rw [Client.step] at hs
      split at hs
      · obtain ⟨rfl, rfl⟩ := Prod.mk.inj (Option.some.inj hs)
        rw [ClientLog.observe_unheard rfl rfl]
        exact h.same ⟨rfl, rfl, rfl, rfl⟩ rfl
      · cases hs
    | shutdown =>
      obtain ⟨rfl, rfl⟩ := Prod.mk.inj (Option.some.inj hs)
      rw [ClientLog.observe_unheard rfl rfl]
      exact h.same ⟨rfl, rfl, rfl, rfl⟩ rfl
  | recv src bytes nowUs t3Us =>
    obtain ⟨⟨c', out⟩, hr, rfl⟩ := Option.map_eq_some_iff.mp hn
    have hrecv := Client.receive_spec hr
    rw [ClientLog.observe_unheard rfl rfl]
    refine h.same ⟨hrecv.cfg, hrecv.cs, hrecv.joined, ?_⟩ hrecv.tasks
    unfold Client.receive at hr
    split at hr
    · cases hr
    · rw [← (Prod.mk.inj (Option.some.inj hr)).1]
  | read op =>
    obtain rfl := Option.some.inj hn
    rw [ClientLog.observe_unheard rfl rfl]
    exact h.same ⟨rfl, rfl, rfl, rfl⟩ rfl

end Standing

/-! ## Runs -/

namespace Client

theorem next_cfg {c c' : Client} {e : ClientEvent} (hn : c.next e = some c') : c'.cfg = c.cfg := by
  cases e with
  | step l =>
    obtain ⟨⟨c', out⟩, hs, rfl⟩ := Option.map_eq_some_iff.mp hn
    exact step_cfg hs
  | recv src bytes nowUs t3Us =>
    obtain ⟨⟨c', out⟩, hr, rfl⟩ := Option.map_eq_some_iff.mp hn
    exact (receive_spec hr).cfg
  | read op =>
    obtain rfl := Option.some.inj hn
    rfl

theorem Runs.standing {cfg : ClientConfig} {startMs nowMs : Nat} {es : List ClientEvent}
    {w : Client × ClientLog} (h : Runs cfg startMs nowMs Steady es w) :
    Standing w.1 w.2 ∧ w.1.cfg = cfg := by
  refine h.invariant (p := fun w => Standing w.1 w.2 ∧ w.1.cfg = cfg) ⟨?_, rfl⟩ ?_
  · refine .joining (show _ = ClientPhase.joining nowMs 1 from rfl) rfl rfl rfl fun task htask => ?_
    rw [List.mem_singleton.mp htask]
    rfl
  · rintro _ ⟨c, g⟩ e ⟨c', g'⟩ _ ⟨hstanding, hcfg⟩ hsteady hs
    obtain ⟨hn, hg⟩ := watch_eq_some.mp hs
    dsimp only at hn hg
    rw [hg]
    exact ⟨hstanding.next hsteady hn, (next_cfg hn).trans hcfg⟩

/-- In a steady run the terminal status always matches the session, and an end is final. -/
theorem status_truthful (cfg : ClientConfig) (startMs nowMs : Nat) (es : List ClientEvent)
    (w : Client × ClientLog) (h : Runs cfg startMs nowMs Steady es w) : Truthful cfg w := by
  obtain ⟨hstanding, hcfg⟩ := h.standing
  cases hstanding with
  | joining _ hj _ _ _ => exact ⟨fun h => (by cases hj.symm.trans h), fun _ => hj⟩
  | accepted _ hj _ _ _ _ => exact ⟨fun h => (by cases hj.symm.trans h), fun _ => hj⟩
  | joined _ hg hs hended _ =>
    refine ⟨fun _ => ⟨_, hg, ?_⟩, fun h => (by cases hended.symm.trans h)⟩
    rw [hs, ClientLog.owed, hg, hcfg, Option.bind_some]
  | timedOut _ hj _ _ _ => exact ⟨fun h => (by cases hj.symm.trans h), fun _ => hj⟩
  | gone _ hj _ => exact ⟨fun h => (by cases hj.symm.trans h), fun _ => hj⟩

theorem status_truthful_rejoin : ∃ w, Runs Scenario.cfg.client 1 1 Steady
    (Scenario.quiet 120 ++ Scenario.takes (Scenario.welcome 8 240) 3 9020) w ∧
    w.1.shared.joined = true ∧
    w.1.terminalStatus = some (mismatchWarning ⟨48000, 240, .pcmS16⟩) := by
  obtain ⟨w, hr, hp⟩ := Runs.of_test Scenario.cfg.client 1 1
    (Scenario.quiet 120 ++ Scenario.takes (Scenario.welcome 8 240) 3 9020) isSteady
    (fun w => w.1.shared.joined && decide (w.2.accepted = some ⟨48000, 240, .pcmS16⟩))
    (fun _ _ => steady_of_test) (by decide +kernel)
  rw [Bool.and_eq_true, decide_eq_true_eq] at hp
  obtain ⟨params, hg, hs⟩ := (status_truthful Scenario.cfg.client 1 1 _ w hr).status hp.1
  rw [hp.2] at hg
  rw [← Option.some.inj hg] at hs
  exact ⟨w, hr, hp.1, hs⟩

/-- A rejoin to a host with the client's own parameters keeps the warning, and a BYE while rejoining does
not keep the client from joining. -/
theorem status_untruthful :
    (∃ w, Runs Scenario.cfg.client 1 1 (fun _ _ => True)
        (Scenario.quiet 240 ++ Scenario.takes (Scenario.welcome 8 120) 3 9020) w ∧
      w.1.shared.joined = true ∧ w.2.accepted = some ⟨48000, 120, .pcmS16⟩ ∧
      Scenario.cfg.client.statusFor ⟨48000, 120, .pcmS16⟩ = none ∧
      w.1.terminalStatus = some (mismatchWarning ⟨48000, 240, .pcmS16⟩) ∧
      ¬ Truthful Scenario.cfg.client w) ∧
    ∃ w, Runs Scenario.cfg.client 1 1 (fun _ _ => True)
        (Scenario.quiet 120 ++ Scenario.takes (stampedDatagram 1 .bye 7 hostSenderId) 5 9010 ++
          Scenario.takes (Scenario.welcome 8 120) 3 9020) w ∧
      w.2.ended = true ∧ w.1.shared.joined = true ∧
      w.1.terminalStatus = some "host ended the session" ∧ ¬ Truthful Scenario.cfg.client w := by
  constructor
  · obtain ⟨w, hr, hp⟩ := Runs.of_test Scenario.cfg.client 1 1
      (Scenario.quiet 240 ++ Scenario.takes (Scenario.welcome 8 120) 3 9020) (fun _ _ => true)
      (fun w => w.1.shared.joined && (decide (w.2.accepted = some ⟨48000, 120, .pcmS16⟩) &&
        decide (w.1.terminalStatus = some (mismatchWarning ⟨48000, 240, .pcmS16⟩))))
      (c := fun _ _ => True) (fun _ _ _ => trivial) (by decide +kernel)
    rw [Bool.and_eq_true, Bool.and_eq_true, decide_eq_true_eq, decide_eq_true_eq] at hp
    obtain ⟨hj, hg, hs⟩ := hp
    have hnone : Scenario.cfg.client.statusFor ⟨48000, 120, .pcmS16⟩ = none := by decide
    refine ⟨w, hr, hj, hg, hnone, hs, fun h => ?_⟩
    obtain ⟨params, hg', hs'⟩ := h.status hj
    rw [hg] at hg'
    rw [← Option.some.inj hg', hnone, hs] at hs'
    cases hs'
  · obtain ⟨w, hr, hp⟩ := Runs.of_test Scenario.cfg.client 1 1
      (Scenario.quiet 120 ++ Scenario.takes (stampedDatagram 1 .bye 7 hostSenderId) 5 9010 ++
        Scenario.takes (Scenario.welcome 8 120) 3 9020) (fun _ _ => true)
      (fun w => w.2.ended && (w.1.shared.joined &&
        decide (w.1.terminalStatus = some "host ended the session")))
      (c := fun _ _ => True) (fun _ _ _ => trivial) (by decide +kernel)
    rw [Bool.and_eq_true, Bool.and_eq_true, decide_eq_true_eq] at hp
    obtain ⟨hended, hj, hs⟩ := hp
    refine ⟨w, hr, hended, hj, hs, fun h => ?_⟩
    cases (h.ended hended).symm.trans hj

end Client

end OnlineJam
