import OnlineJam.Core.Scenario
import OnlineJam.Proofs.JoinProofs

/-!
# The client's roster and its watermark

What a step does to the roster and to the number of the newest ROSTER, and which packet the roster of a
joined client is from.
-/

namespace OnlineJam

open OnlineJam.Lib

/-- The task belongs to a join. -/
def ClientTask.IsJoin (task : ClientTask) : Prop :=
  (∃ senderId sessionId params, task = .act (.startAudio senderId sessionId params)) ∨
    ∃ roster, task = .act (.rosterUpdate roster)

namespace Session

/-! ## What a step does -/

/-- The `i`-th datagram is the WELCOME that was accepted last, and carries this roster. -/
def Welcomed (cfg : SessionConfig) (s : Session) (g : SessionLog) (roster : List PlayerInfo) : Prop :=
  ∃ i header id sessionId sampleRate frameSamples codec, g.accepted = some i ∧ Carries cfg s i header
    (.welcome id sessionId sampleRate frameSamples codec roster)

/-- A step, by what it does to the roster and the watermark. -/
inductive RosterTurn (cfg : SessionConfig) (s : Session) (g : SessionLog) (l : SessionLabel)
    (t : Session) (g' : SessionLog) : Prop
  /-- Roster, watermark and log stay, and no task of a join is executed. -/
  | keeps (hroster : t.client.roster = s.client.roster)
    (hlast : t.client.lastRosterSeq = s.client.lastRosterSeq) (hlog : g'.rosters = g.rosters)
    (haccepted : g'.accepted = g.accepted)
    (hcs : t.client.cs.isJoined = true → s.client.cs.isJoined = true)
    (hjoined : t.client.shared.joined = true → s.client.shared.joined = true)
    (htasks : t.client.tasks = s.client.tasks ∨
      (∀ task ∈ t.client.tasks, task.IsJoin → task ∈ s.client.tasks) ∧
      ∀ task ∈ s.client.tasks.head?, ¬ task.IsJoin)
  /-- The handshake machine is Joined by the packet in hand. -/
  | joins {nowUs : Nat} {id sessionId : UInt16} {params : SessionParams} {roster : List PlayerInfo}
    (hl : l = .client (.control nowUs))
    (hphase : ∃ control, s.client.phase = .handshake (some control) ∧ control.packetType = .welcome)
    (hlast : t.client.lastRosterSeq = s.client.lastRosterSeq) (hlog : g'.rosters = g.rosters)
    (htasks : s.client.tasks = []) (htasks' : t.client.tasks =
      [.act (.startAudio id sessionId params), .act (.rosterUpdate roster)])
    (hwelcome : Welcomed cfg t g' roster) (haccepted : g'.accepted = g.inHand)
  /-- Audio is started. -/
  | starts {nowUs : Nat} {id sessionId : UInt16} {params : SessionParams}
    (hl : l = .client (.control nowUs))
    (htasks : s.client.tasks = .act (.startAudio id sessionId params) :: t.client.tasks)
    (hlast : t.client.lastRosterSeq = none) (hlog : g'.rosters = [])
    (haccepted : g'.accepted = g.accepted)
    (hcs : t.client.cs.isJoined = true → s.client.cs.isJoined = true)
  /-- The roster of a WELCOME is taken. -/
  | updates {nowUs : Nat} (hl : l = .client (.control nowUs))
    (htasks : s.client.tasks = .act (.rosterUpdate t.client.roster) :: t.client.tasks)
    (hlast : t.client.lastRosterSeq = s.client.lastRosterSeq) (hlog : g'.rosters = g.rosters)
    (haccepted : g'.accepted = g.accepted)
    (hcs : t.client.cs.isJoined = true → s.client.cs.isJoined = true)
  /-- A ROSTER is taken from the channel. -/
  | takes {nowMs i : Nat} {ev : CtrlEvent} {header : Header} {players : List PlayerInfo}
    (hl : l = .client (.wake nowMs)) (hhead : s.client.events.head? = some ev)
    (hcontrol : ev.control = .roster players)
    (hcar : Carries cfg s i header (.roster players)) (hqueue : g.queue.head? = some i)
    (hlast : t.client.lastRosterSeq = (acceptControlSeq s.client.lastRosterSeq header.seq).2)
    (hroster : t.client.roster =
      if (acceptControlSeq s.client.lastRosterSeq header.seq).1 then players else s.client.roster)
    (hlog : g'.rosters = g.rosters ++ [(i, decide (t.client.roster = players))])
    (haccepted : g'.accepted = g.accepted)
    (hcs : t.client.cs.isJoined = true → s.client.cs.isJoined = true)
    (htasks : s.client.tasks = []) (htasks' : ¬ t.client.Joining)
    (hjoined : t.client.shared.joined = true → s.client.shared.joined = true)

theorem isJoined_iff {cs : ClientHandshake} :
    cs.isJoined = true ↔ ∃ id sessionId params, cs.phase = .joined id sessionId params := by
  unfold ClientHandshake.isJoined
  split
  · rename_i id sid params hp
    exact ⟨fun _ => ⟨id, sid, params, hp⟩, fun _ => rfl⟩
  · rename_i hno
    exact ⟨fun h => (by cases h), fun ⟨id, sid, params, hp⟩ => absurd hp (hno id sid params)⟩

theorem accepted_same {cfg : SessionConfig} {g : SessionLog} {s t : Session} {l : SessionLabel}
    (h : t.client.cs.isJoined = true → s.client.cs.isJoined = true) :
    (SessionLog.observe cfg g s l t).accepted = g.accepted := by
  show (if ¬ s.client.cs.isJoined ∧ t.client.cs.isJoined then g.inHand else g.accepted) = g.accepted
  rw [if_neg]
  rintro ⟨hs, ht⟩
  exact hs (h ht)

theorem not_joining_of_byes {c : Client} (h : ∀ task ∈ c.tasks, task = .bye) : ¬ c.Joining := by
  rintro (⟨_, _, _, hmem⟩ | ⟨_, hmem⟩) <;> cases h _ hmem

theorem not_joining_of_no_act {c : Client} (h : ∀ action, .act action ∉ c.tasks) : ¬ c.Joining := by
  rintro (⟨_, _, _, hmem⟩ | ⟨_, hmem⟩) <;> exact h _ hmem

theorem joining_of_isJoin {c : Client} {task : ClientTask} (hmem : task ∈ c.tasks) (h : task.IsJoin) :
    c.Joining := by
  rcases h with ⟨id, sid, params, rfl⟩ | ⟨roster, rfl⟩
  · exact .inl ⟨id, sid, params, hmem⟩
  · exact .inr ⟨roster, hmem⟩

/-- Nothing is left of a join if it was not there before. -/
theorem joining_of_mem {c c' : Client} (h : ∀ task ∈ c'.tasks, task.IsJoin → task ∈ c.tasks) :
    c'.Joining → c.Joining := by
  rintro (⟨id, sid, params, hmem⟩ | ⟨roster, hmem⟩)
  · exact joining_of_isJoin (h _ hmem (.inl ⟨_, _, _, rfl⟩)) (.inl ⟨id, sid, params, rfl⟩)
  · exact joining_of_isJoin (h _ hmem (.inr ⟨_, rfl⟩)) (.inr ⟨roster, rfl⟩)

/-- Starting audio clears the log. -/
theorem rosters_of_start {cfg : SessionConfig} {g : SessionLog} {s t : Session} {nowUs : Nat}
    {id sessionId : UInt16} {params : SessionParams} {tasks : List ClientTask}
    (h : s.client.tasks = .act (.startAudio id sessionId params) :: tasks) :
    (SessionLog.observe cfg g s (.client (.control nowUs)) t).rosters = [] := by
  unfold SessionLog.observe
  dsimp only
  rw [h]

/-- No other task touches it. -/
theorem rosters_of_control {cfg : SessionConfig} {g : SessionLog} {s t : Session} {nowUs : Nat}
    (h : ∀ id sessionId params,
      s.client.tasks.head? ≠ some (.act (.startAudio id sessionId params))) :
    (SessionLog.observe cfg g s (.client (.control nowUs)) t).rosters = g.rosters := by
  unfold SessionLog.observe
  dsimp only
  split
  · rename_i htasks
    exact absurd (by rw [htasks]; rfl) (h _ _ _)
  · rfl

/-- A ROSTER that is taken is logged. -/
theorem rosters_of_take {cfg : SessionConfig} {g : SessionLog} {s t : Session} {nowMs i : Nat}
    {ev : CtrlEvent} {events : List CtrlEvent} {players : List PlayerInfo}
    (hev : s.client.events = ev :: events) (hc : ev.control = .roster players)
    (hq : g.queue.head? = some i) :
    (SessionLog.observe cfg g s (.client (.wake nowMs)) t).rosters =
      g.rosters ++ [(i, decide (t.client.roster = players))] := by
  obtain ⟨queue, hq⟩ := List.head?_eq_some_iff.mp hq
  unfold SessionLog.observe
  dsimp only
  rw [hev, List.map_cons, hc, hq]

/-- So is nothing else. -/
theorem rosters_of_wake {cfg : SessionConfig} {g : SessionLog} {s t : Session} {nowMs : Nat}
    (h : ∀ ev ∈ s.client.events.head?, ∀ players, ev.control ≠ .roster players) :
    (SessionLog.observe cfg g s (.client (.wake nowMs)) t).rosters = g.rosters := by
  unfold SessionLog.observe
  dsimp only
  split
  · rename_i players rest i queue hmap _
    obtain ⟨ev, events, hev, hc, _⟩ := List.map_eq_cons_iff.mp hmap
    exact absurd hc (h ev (by rw [hev]; rfl) players)
  · rfl

section Runs

variable {cfg : SessionConfig} {c : Watched → SessionLabel → Prop} {ls : List SessionLabel}
  {w : Watched} {s t : Session} {g : SessionLog} {l : SessionLabel}

/-- A step of somebody else, or one of the client on the side. -/
theorem RosterTurn.of_same {g' : SessionLog} (hroster : t.client.roster = s.client.roster)
    (hlast : t.client.lastRosterSeq = s.client.lastRosterSeq)
    (hjoined : t.client.shared.joined = s.client.shared.joined)
    (htasks : t.client.tasks = s.client.tasks) (hcs : t.client.cs = s.client.cs)
    (hlog : g'.rosters = g.rosters) (haccepted : g'.accepted = g.accepted) :
    RosterTurn cfg s g l t g' :=
  .keeps hroster hlast hlog haccepted (fun h => hcs ▸ h) (fun h => hjoined ▸ h) (.inl htasks)

/-- Executing a task. -/
theorem rosterTurn_perform {nowUs : Nat} {task : ClientTask} {tasks : List ClientTask}
    {r : Client × Option Outgoing} (htasks : s.client.tasks = task :: tasks)
    (hp : Client.perform { s.client with tasks := tasks } nowUs task = r) :
    RosterTurn cfg s g (.client (.control nowUs)) (s.clientMoved cfg r)
      (SessionLog.observe cfg g s (.client (.control nowUs)) (s.clientMoved cfg r)) := by
  have hcs := Client.perform_cs { s.client with tasks := tasks } nowUs task
  have hcases := Client.perform_cases { s.client with tasks := tasks } nowUs task
  rw [hp] at hcs hcases
  have hback : r.1.cs.isJoined = true → s.client.cs.isJoined = true := by
    intro hj
    rcases hcs with hcs | hcs
    · exact hcs ▸ hj
    · rw [ClientHandshake.isJoined, hcs] at hj
      cases hj
  have hacc : (SessionLog.observe cfg g s (.client (.control nowUs)) (s.clientMoved cfg r)).accepted =
      g.accepted := accepted_same hback
  -- What remains of the tasks, after one that is not of a join.
  have rest : ¬ task.IsJoin → (∀ t ∈ r.1.tasks, t.IsJoin → t ∈ tasks) →
      r.1.tasks = s.client.tasks ∨ (∀ t ∈ r.1.tasks, t.IsJoin → t ∈ s.client.tasks) ∧
        ∀ t ∈ s.client.tasks.head?, ¬ t.IsJoin := by
    intro hno hmem
    right
    refine ⟨fun t ht hj => ?_, fun t ht => ?_⟩
    · rw [htasks]
      exact List.mem_cons_of_mem _ (hmem t ht hj)
    · rw [htasks] at ht
      rwa [← Option.some.inj ht]
  have hlog : ¬ task.IsJoin → (SessionLog.observe cfg g s (.client (.control nowUs))
      (s.clientMoved cfg r)).rosters = g.rosters := by
    refine fun hno => rosters_of_control fun id sid params h => hno (.inl ⟨id, sid, params, ?_⟩)
    rw [htasks] at h
    exact Option.some.inj h
  rcases hcases with ⟨hsame, ht, _, hact⟩ | ⟨id, sid, params, rfl, rfl⟩ | ⟨roster, rfl, rfl⟩ |
    ⟨failure, rfl, _, ⟨hsame, ht, _⟩ | rfl⟩
  · have ht : r.1.tasks = tasks := ht
    have hno : ¬ task.IsJoin := by
      rintro (⟨_, _, _, rfl⟩ | ⟨_, rfl⟩) <;> obtain ⟨_, h⟩ := hact _ rfl <;> cases h
    exact .keeps hsame.roster hsame.lastRosterSeq (hlog hno) hacc hback (fun hj => hsame.joined ▸ hj)
      (rest hno fun t hmem _ => ht ▸ hmem)
  · exact .starts rfl htasks rfl (rosters_of_start htasks) hacc hback
  · exact .updates rfl htasks rfl (rosters_of_control fun _ _ _ h => by rw [htasks] at h; cases h) hacc
      hback
  · have ht : r.1.tasks = tasks := ht
    have hno : ¬ (ClientTask.act (.failed failure)).IsJoin := by
      rintro (⟨_, _, _, h⟩ | ⟨_, h⟩) <;> cases h
    exact .keeps hsame.roster hsame.lastRosterSeq (hlog hno) hacc hback (fun hj => hsame.joined ▸ hj)
      (rest hno fun t hmem _ => ht ▸ hmem)
  · have hno : ¬ (ClientTask.act (.failed failure)).IsJoin := by
      rintro (⟨_, _, _, h⟩ | ⟨_, h⟩) <;> cases h
    refine .keeps rfl rfl (hlog hno) hacc hback (fun hj => hj) (rest hno fun t hmem hj => ?_)
    rcases Client.mem_restart.mp hmem with rfl | hmem
    · rcases hj with ⟨_, _, _, h⟩ | ⟨_, h⟩ <;> cases h
    · exact hmem

/-- A phase of the loop. -/
theorem Runs.rosterTurn_advance {nowUs : Nat} {r : Client × Option Outgoing}
    (h : Runs cfg c ls (s, g)) (htasks : s.client.tasks = [])
    (hs : s.client.step (.control nowUs) = some r) (ha : s.client.advance nowUs = some r) :
    RosterTurn cfg s g (.client (.control nowUs)) (s.clientMoved cfg r)
      (SessionLog.observe cfg g s (.client (.control nowUs)) (s.clientMoved cfg r)) := by
  have hlog : (SessionLog.observe cfg g s (.client (.control nowUs)) (s.clientMoved cfg r)).rosters =
      g.rosters := rosters_of_control fun _ _ _ h => by rw [htasks] at h; cases h
  -- The tasks of these phases.
  have idle : ¬ r.1.Joining → r.1.tasks = s.client.tasks ∨
      (∀ t ∈ r.1.tasks, t.IsJoin → t ∈ s.client.tasks) ∧
        ∀ t ∈ s.client.tasks.head?, ¬ t.IsJoin := by
    refine fun hn => .inr ⟨fun t ht hj => absurd (joining_of_isJoin ht hj) hn, fun t ht => ?_⟩
    rw [htasks] at ht
    cases ht
  obtain ⟨c', out⟩ := r
  rcases Client.advance_cases htasks ha with ⟨control, hphase, rfl, rfl⟩ | ⟨deadline, _, rfl, rfl⟩ |
    ⟨hsame, hbye, _⟩
  · rcases Client.runHandshake_cases h.client_inv.1 hphase with
      ⟨id, sessionId, sampleRate, frameSamples, codec, roster, rfl, hnot, hjoined, htasks'⟩ | ⟨hold, hn⟩
    · obtain ⟨i, header, hi, hcar⟩ := h.inHand _ hphase
      have hj := isJoined_iff.mpr ⟨_, _, _, hjoined⟩
      have hacc : (SessionLog.observe cfg g s (.client (.control nowUs)) (s.clientMoved cfg
          (s.client.runHandshake _, none))).accepted = g.inHand :=
        if_pos ⟨by rw [hnot]; exact Bool.false_ne_true, hj⟩
      refine .joins rfl ⟨_, hphase, rfl⟩ rfl hlog htasks htasks'
        ⟨i, header, id, sessionId, sampleRate, frameSamples, codec, hacc.trans hi, hcar.mono (.client hs)⟩ hacc
    · have hback : (s.client.runHandshake control).cs.isJoined = true → s.client.cs.isJoined = true := by
        intro hj
        obtain ⟨id, sid, params, hp⟩ := isJoined_iff.mp hj
        exact isJoined_iff.mpr ⟨id, sid, params, hold _ _ _ hp⟩
      exact .keeps rfl rfl hlog (accepted_same hback) hback (fun hj => hj) (idle hn)
  · refine .keeps rfl rfl hlog (accepted_same fun hj => by cases hj) (fun hj => by cases hj)
      (fun hj => by cases hj) (idle ?_)
    rintro (⟨_, _, _, hmem⟩ | ⟨_, hmem⟩) <;> rcases Client.mem_restart.mp hmem with hmem | hmem
    · cases hmem
    · exact absurd (htasks ▸ hmem) List.not_mem_nil
    · cases hmem
    · exact absurd (htasks ▸ hmem) List.not_mem_nil
  · exact .keeps hsame.roster hsame.lastRosterSeq hlog (accepted_same fun hj => hsame.cs ▸ hj)
      (fun hj => hsame.cs ▸ hj) (fun hj => hsame.joined ▸ hj) (idle (not_joining_of_byes hbye))

/-- The channel hands out a packet. -/
theorem Runs.rosterTurn_wake {nowMs : Nat} (h : Runs cfg c ls (s, g)) (htasks : s.client.tasks = []) :
    RosterTurn cfg s g (.client (.wake nowMs)) (s.clientMoved cfg (s.client.wake nowMs, none))
      (SessionLog.observe cfg g s (.client (.wake nowMs))
        (s.clientMoved cfg (s.client.wake nowMs, none))) := by
  have idle : ¬ (s.client.wake nowMs).Joining → (s.client.wake nowMs).tasks = s.client.tasks ∨
      (∀ t ∈ (s.client.wake nowMs).tasks, t.IsJoin → t ∈ s.client.tasks) ∧
        ∀ t ∈ s.client.tasks.head?, ¬ t.IsJoin := by
    refine fun hn => .inr ⟨fun t ht hj => absurd (joining_of_isJoin ht hj) hn, fun t ht => ?_⟩
    rw [htasks] at ht
    cases ht
  rcases Client.wake_cases nowMs htasks with ⟨hnil, hsame, hbye, _⟩ | ⟨ev, events, hcons, hd⟩
  · exact .keeps hsame.roster hsame.lastRosterSeq
      (rosters_of_wake fun ev hmem => by rw [hnil] at hmem; cases hmem)
      (accepted_same fun hj => hsame.cs ▸ hj) (fun hj => hsame.cs ▸ hj)
      (fun hj => hsame.joined ▸ hj) (idle (not_joining_of_byes hbye))
  have hn := not_joining_of_no_act hd.tasks
  have hacc : (SessionLog.observe cfg g s (.client (.wake nowMs))
      (s.clientMoved cfg (s.client.wake nowMs, none))).accepted = g.accepted :=
    accepted_same fun hj => hd.cs ▸ hj
  have hqueue := h.queue
  rw [hcons] at hqueue
  obtain ⟨i, queue, hcar, _, hq⟩ := List.forall₂_cons_left_iff.mp hqueue
  have hq : g.queue.head? = some i := by rw [hq]; rfl
  by_cases hr : ∃ players, ev.control = .roster players
  · obtain ⟨players, hr⟩ := hr
    obtain ⟨hlast, hroster⟩ := hd.roster players hr
    exact .takes rfl (by rw [hcons]; rfl) hr (hr ▸ hcar) hq hlast hroster (rosters_of_take hcons hr hq) hacc
      (fun hj => hd.cs ▸ hj) htasks hn hd.joined
  · have hr : ∀ players, ev.control ≠ .roster players := fun players he => hr ⟨players, he⟩
    obtain ⟨hlast, hroster⟩ := hd.other hr
    refine .keeps hroster hlast (rosters_of_wake fun ev' hmem => ?_) hacc (fun hj => hd.cs ▸ hj)
      hd.joined (idle hn)
    rw [hcons] at hmem
    exact Option.some.inj hmem ▸ hr

/-- What a step of a run does to the roster and the watermark. -/
theorem Runs.rosterTurn (h : Runs cfg c ls (s, g)) (hev : Event cfg s l t) :
    RosterTurn cfg s g l t (SessionLog.observe cfg g s l t) := by
  cases hev with
  | host _ => exact .of_same rfl rfl rfl rfl rfl rfl (accepted_same fun hj => hj)
  | hostRecv _ _ _ => exact .of_same rfl rfl rfl rfl rfl rfl (accepted_same fun hj => hj)
  | strangerRecv _ _ _ => exact .of_same rfl rfl rfl rfl rfl rfl (accepted_same fun hj => hj)
  | @clientRecv i nowUs t3Us e r _ _ hr =>
    have hrec := Client.receive_spec (o := r.2) hr
    exact .of_same hrec.roster hrec.lastRosterSeq hrec.joined hrec.tasks hrec.cs rfl
      (accepted_same fun hj => hrec.cs ▸ hj)
  | @client cl r hs =>
    rcases Client.step_cases (o := r.2) hs with ⟨nowUs, task, tasks, rfl, htasks, hp⟩ |
      ⟨nowUs, rfl, htasks, ha⟩ | ⟨nowMs, rfl, htasks, he, hout⟩ | ⟨hl1, hl2, hsame, htasks, _⟩
    · exact rosterTurn_perform htasks hp
    · exact h.rosterTurn_advance htasks hs ha
    · obtain rfl : r = (s.client.wake nowMs, none) := Prod.ext he hout
      exact h.rosterTurn_wake htasks
    · refine .of_same hsame.roster hsame.lastRosterSeq hsame.joined htasks hsame.cs ?_
        (accepted_same fun hj => hsame.cs ▸ hj)
      cases cl with
      | control nowUs => exact absurd rfl (hl1 nowUs)
      | wake nowMs => exact absurd rfl (hl2 nowMs)
      | _ => rfl

/-- Every ROSTER in the log is a datagram of the host to the client. -/
theorem Runs.rosters (h : Runs cfg c ls w) :
    ∀ e ∈ w.2.rosters, ∃ header players, Carries cfg w.1 e.1 header (.roster players) := by
  refine h.induction (p := fun s g => ∀ e ∈ g.rosters, ∃ header players,
    Carries cfg s e.1 header (.roster players)) (fun e he => by cases he) ?_
  intro ls s g l t hrun hp _ hev e he
  have old : e ∈ g.rosters → ∃ header players, Carries cfg t e.1 header (.roster players) := by
    intro he
    obtain ⟨header, players, hcar⟩ := hp e he
    exact ⟨header, players, hcar.mono hev⟩
  cases hrun.rosterTurn hev with
  | keeps _ _ hlog => exact old (hlog ▸ he)
  | joins _ _ _ hlog => exact old (hlog ▸ he)
  | starts _ _ _ hlog =>
    rw [hlog] at he
    cases he
  | updates _ _ _ hlog => exact old (hlog ▸ he)
  | takes _ _ _ hcar _ _ _ hlog =>
    rw [hlog] at he
    rcases List.mem_append.mp he with he | he
    · exact old he
    · obtain rfl := List.mem_singleton.mp he
      exact ⟨_, _, hcar.mono hev⟩

/-- A ROSTER carries the number it was stamped with. -/
theorem Runs.roster_seq (h : Runs cfg c ls w) {i : Nat} {header : Header} {players : List PlayerInfo}
    (hcar : Carries cfg w.1 i header (.roster players)) :
    header.seq = lowSeq (w.2.note i).stamp := by
  obtain ⟨e, hi, hsrc, _, hp⟩ := hcar
  exact ((h.fromHost i e hi hsrc).parses hp (by simp [Control.packetType])).1

/-! ## The roster of a joined client -/

end Runs

/-- The ROSTERs in the log were stamped less than half the ring apart. -/
def Near (g : SessionLog) : Prop :=
  ∀ e ∈ g.rosters, ∀ e' ∈ g.rosters, (g.note e.1).stamp < (g.note e'.1).stamp + 32768

/-- The client has the roster of the newest ROSTER in the log. -/
def Newest (cfg : SessionConfig) (s : Session) (g : SessionLog) : Prop :=
  ∃ e ∈ g.rosters, ∃ header, Carries cfg s e.1 header (.roster s.client.roster) ∧
    s.client.lastRosterSeq = some header.seq ∧
    ∀ e' ∈ g.rosters, (g.note e'.1).stamp ≤ (g.note e.1).stamp

/-- The client has the roster it should have: that of the newest ROSTER since the join, or else that of
the WELCOME. -/
structure Latest (cfg : SessionConfig) (s : Session) (g : SessionLog) : Prop where
  welcome : g.rosters = [] → s.client.lastRosterSeq = none ∧ Welcomed cfg s g s.client.roster
  newest : g.rosters ≠ [] → Near g → Newest cfg s g

/-- How far a join has come. -/
inductive JoinStage (cfg : SessionConfig) (s : Session) (g : SessionLog) : Prop
  | accepted {id sessionId : UInt16} {params : SessionParams} {roster : List PlayerInfo}
    (htasks : s.client.tasks = [.act (.startAudio id sessionId params), .act (.rosterUpdate roster)])
    (hwelcome : Welcomed cfg s g roster)
  | started {roster : List PlayerInfo} (htasks : s.client.tasks = [.act (.rosterUpdate roster)])
    (hlast : s.client.lastRosterSeq = none) (hlog : g.rosters = []) (hwelcome : Welcomed cfg s g roster)
  | settled (hn : ¬ s.client.Joining) (h : s.client.shared.joined = true → Latest cfg s g)

section Runs

variable {cfg : SessionConfig} {c : Watched → SessionLabel → Prop} {ls : List SessionLabel}
  {w : Watched} {s t : Session} {g : SessionLog} {l : SessionLabel}

theorem Welcomed.mono {roster : List PlayerInfo} (h : Welcomed cfg s g roster) (hev : Event cfg s l t)
    {g' : SessionLog} (hacc : g'.accepted = g.accepted) : Welcomed cfg t g' roster := by
  obtain ⟨i, header, id, sessionId, sampleRate, frameSamples, codec, hi, hcar⟩ := h
  exact ⟨i, header, id, sessionId, sampleRate, frameSamples, codec, hacc.trans hi, hcar.mono hev⟩

/-- What is noted about the ROSTERs in the log stays. -/
theorem Runs.note_rosters (h : Runs cfg c ls (s, g)) {t : Session} {l : SessionLabel} :
    ∀ e ∈ g.rosters, (SessionLog.observe cfg g s l t).note e.1 = g.note e.1 := by
  intro e he
  obtain ⟨_, _, _, hi, _⟩ := h.rosters e he
  exact note_of_lt (lt_of_net hi)

theorem Runs.latest_keeps (h : Runs cfg c ls (s, g)) (hev : Event cfg s l t) (hp : Latest cfg s g)
    (hroster : t.client.roster = s.client.roster)
    (hlast : t.client.lastRosterSeq = s.client.lastRosterSeq)
    (hlog : (SessionLog.observe cfg g s l t).rosters = g.rosters)
    (hacc : (SessionLog.observe cfg g s l t).accepted = g.accepted) :
    Latest cfg t (SessionLog.observe cfg g s l t) := by
  have hnote := h.note_rosters (t := t) (l := l)
  constructor
  · intro hnil
    obtain ⟨hnone, hw⟩ := hp.welcome (hlog ▸ hnil)
    rw [hlast, hroster]
    exact ⟨hnone, hw.mono hev hacc⟩
  · intro hne hnear
    have hnear : Near g := fun e he e' he' => by
      have hlt := hnear e (hlog ▸ he) e' (hlog ▸ he')
      rwa [hnote e he, hnote e' he'] at hlt
    obtain ⟨e, he, header, hcar, hseq, hmax⟩ := hp.newest (hlog ▸ hne) hnear
    refine ⟨e, hlog ▸ he, header, hroster ▸ hcar.mono hev, hlast ▸ hseq, fun e' he' => ?_⟩
    rw [hlog] at he'
    rw [hnote e he, hnote e' he']
    exact hmax e' he'

/-- A ROSTER is compared with the newest one so far. -/
theorem Runs.latest_takes (h : Runs cfg c ls (s, g)) (hev : Event cfg s l t) (hp : Latest cfg s g)
    {i : Nat} {header : Header} {players : List PlayerInfo} {b : Bool}
    (hcar : Carries cfg s i header (.roster players))
    (hlast : t.client.lastRosterSeq = (acceptControlSeq s.client.lastRosterSeq header.seq).2)
    (hroster : t.client.roster =
      if (acceptControlSeq s.client.lastRosterSeq header.seq).1 then players else s.client.roster)
    (hlog : (SessionLog.observe cfg g s l t).rosters = g.rosters ++ [(i, b)]) :
    Latest cfg t (SessionLog.observe cfg g s l t) := by
  refine ⟨fun hnil => ?_, fun _ hnear => ?_⟩
  · rw [hlog] at hnil
    exact absurd hnil (by simp)
  have hnote := h.note_rosters (t := t) (l := l)
  have hnotei : (SessionLog.observe cfg g s l t).note i = g.note i := by
    obtain ⟨_, hi, _⟩ := hcar
    exact note_of_lt (lt_of_net hi)
  have hmem : (i, b) ∈ (SessionLog.observe cfg g s l t).rosters := by
    rw [hlog]
    exact List.mem_append_right _ (List.mem_singleton.mpr rfl)
  have hold : ∀ e ∈ g.rosters, e ∈ (SessionLog.observe cfg g s l t).rosters := fun e he => by
    rw [hlog]
    exact List.mem_append_left _ he
  -- The new one is adopted.
  have adopted : (∀ e ∈ g.rosters, (g.note e.1).stamp ≤ (g.note i).stamp) →
      acceptControlSeq s.client.lastRosterSeq header.seq = (true, some header.seq) →
      Newest cfg t (SessionLog.observe cfg g s l t) := by
    intro hmax hacc
    rw [hacc] at hlast hroster
    refine ⟨(i, b), hmem, header, ?_, hlast, fun e' he' => ?_⟩
    · rw [hroster]
      exact hcar.mono hev
    · rw [hlog] at he'
      rcases List.mem_append.mp he' with he' | he'
      · rw [hnote e' he', hnotei]
        exact hmax e' he'
      · rw [List.mem_singleton.mp he']
  by_cases hnil : g.rosters = []
  · obtain ⟨hnone, _⟩ := hp.welcome hnil
    refine adopted (fun e he => ?_) (by rw [hnone]; rfl)
    rw [hnil] at he
    cases he
  have hnear' : Near g := fun e he e' he' => by
    have hlt := hnear e (hold e he) e' (hold e' he')
    rwa [hnote e he, hnote e' he'] at hlt
  obtain ⟨e, he, header', hcar', hseq, hmax⟩ := hp.newest hnil hnear'
  have hlt := hnear (i, b) hmem e (hold e he)
  have hlt' := hnear e (hold e he) (i, b) hmem
  rw [hnotei, hnote e he] at hlt hlt'
  have hnewer : newerThan header.seq header'.seq = true ↔ (g.note e.1).stamp < (g.note i).stamp := by
    have hs : header.seq = lowSeq (g.note i).stamp := h.roster_seq hcar
    have hs' : header'.seq = lowSeq (g.note e.1).stamp := h.roster_seq hcar'
    rw [hs, hs', newerThan_lowSeq (by omega) (by omega)]
    exact Int.ofNat_lt
  by_cases hnew : newerThan header.seq header'.seq = true
  · refine adopted (fun e' he' => ?_) (by rw [hseq]; simp only [acceptControlSeq, hnew, if_true])
    exact (hmax e' he').trans (hnewer.mp hnew).le
  · -- It is old.
    have hacc : acceptControlSeq s.client.lastRosterSeq header.seq = (false, some header'.seq) := by
      rw [hseq]
      simp only [acceptControlSeq, if_neg hnew]
    rw [hacc] at hlast hroster
    refine ⟨e, hold e he, header', ?_, hlast, fun e' he' => ?_⟩
    · rw [hroster]
      exact hcar'.mono hev
    · rw [hlog] at he'
      rcases List.mem_append.mp he' with he' | he'
      · rw [hnote e' he', hnote e he]
        exact hmax e' he'
      · rw [List.mem_singleton.mp he', hnotei, hnote e he]
        exact Nat.le_of_not_lt fun hlt => hnew (hnewer.mpr hlt)

theorem Runs.joinStage (h : Runs cfg c ls w) : JoinStage cfg w.1 w.2 := by
  refine h.induction (p := fun s g => JoinStage cfg s g) (.settled ?_ fun hj => by cases hj) ?_
  · rintro (⟨_, _, _, hmem⟩ | ⟨_, hmem⟩) <;> cases List.mem_singleton.mp hmem
  intro ls s g l t hrun hp _ hev
  have hturn := hrun.rosterTurn hev
  cases hp with
  | accepted htasks hwelcome =>
    cases hturn with
    | keeps hroster hlast hlog hacc _ hjoined ht =>
      rcases ht with ht | ⟨_, hno⟩
      · exact .accepted (ht.trans htasks) (hwelcome.mono hev hacc)
      · exact absurd (.inl ⟨_, _, _, rfl⟩) (hno _ (by rw [htasks]; rfl))
    | joins _ _ _ _ ht => cases htasks.symm.trans ht
    | starts _ ht hlast hlog hacc =>
      obtain ⟨_, ht⟩ := List.cons_eq_cons.mp (htasks.symm.trans ht)
      exact .started ht.symm hlast hlog (hwelcome.mono hev hacc)
    | updates _ ht => cases (List.cons_eq_cons.mp (htasks.symm.trans ht)).1
    | takes _ _ _ _ _ _ _ _ _ _ ht => cases htasks.symm.trans ht
  | started htasks hnone hnil hwelcome =>
    cases hturn with
    | keeps hroster hlast hlog hacc _ hjoined ht =>
      rcases ht with ht | ⟨_, hno⟩
      · exact .started (ht.trans htasks) (hlast.trans hnone) (hlog.trans hnil) (hwelcome.mono hev hacc)
      · exact absurd (.inr ⟨_, rfl⟩) (hno _ (by rw [htasks]; rfl))
    | joins _ _ _ _ ht => cases htasks.symm.trans ht
    | starts _ ht => cases (List.cons_eq_cons.mp (htasks.symm.trans ht)).1
    | updates _ ht hlast hlog hacc =>
      obtain ⟨hr, ht⟩ := List.cons_eq_cons.mp (htasks.symm.trans ht)
      obtain rfl := ClientAction.rosterUpdate.inj (ClientTask.act.inj hr)
      refine .settled ?_ fun _ => ⟨fun _ => ⟨hlast.trans hnone, hwelcome.mono hev hacc⟩, fun hne => ?_⟩
      · rintro (⟨_, _, _, hmem⟩ | ⟨_, hmem⟩) <;> rw [← ht] at hmem <;> cases hmem
      · exact absurd (hlog.trans hnil) hne
    | takes _ _ _ _ _ _ _ _ _ _ ht => cases htasks.symm.trans ht
  | settled hn hlatest =>
    cases hturn with
    | keeps hroster hlast hlog hacc _ hjoined ht =>
      refine .settled ?_ fun hj => hrun.latest_keeps hev (hlatest (hjoined hj)) hroster hlast hlog hacc
      rcases ht with ht | ⟨hback, _⟩
      · rwa [Client.Joining, ht]
      · exact fun hj => hn (joining_of_mem hback hj)
    | joins _ _ _ _ _ htasks hwelcome => exact .accepted htasks hwelcome
    | starts _ ht => exact absurd (.inl ⟨_, _, _, by rw [ht]; exact List.mem_cons_self⟩) hn
    | updates _ ht => exact absurd (.inr ⟨_, by rw [ht]; exact List.mem_cons_self⟩) hn
    | takes _ _ _ hcar _ hlast hroster hlog _ _ _ hn' hjoined =>
      exact .settled hn' fun hj => hrun.latest_takes hev (hlatest (hjoined hj)) hcar hlast hroster hlog

end Runs

/-- The roster of a joined client is that of the newest ROSTER its control loop has taken since the join,
or that of the WELCOME if it has taken none. -/
theorem roster_of_joined (cfg : SessionConfig) (ls : List SessionLabel) (w : Watched)
    (h : Runs cfg (fun _ _ => True) ls w) (hj : w.1.client.shared.joined = true)
    (hn : ¬ w.1.client.Joining) (hnear : Near w.2) :
    (w.2.rosters = [] → Welcomed cfg w.1 w.2 w.1.client.roster) ∧
    (w.2.rosters ≠ [] → ∃ e ∈ w.2.rosters,
      (∃ header, Carries cfg w.1 e.1 header (.roster w.1.client.roster)) ∧
      ∀ e' ∈ w.2.rosters, (w.2.note e'.1).stamp ≤ (w.2.note e.1).stamp) := by
  have hlatest : Latest cfg w.1 w.2 := by
    cases h.joinStage with
    | accepted ht => exact absurd (.inl ⟨_, _, _, by rw [ht]; exact List.mem_cons_self⟩) hn
    | started ht => exact absurd (.inr ⟨_, by rw [ht]; exact List.mem_cons_self⟩) hn
    | settled _ hl => exact hl hj
  refine ⟨fun hnil => (hlatest.welcome hnil).2, fun hne => ?_⟩
  obtain ⟨e, he, header, hcar, _, hmax⟩ := hlatest.newest hne hnear
  exact ⟨e, he, ⟨header, hcar⟩, hmax⟩

/-- A stranger joins after the client and the client takes the ROSTER. -/
def joinThenRoster : List SessionLabel :=
  Scenario.hello ++ Scenario.join 20 ++ Scenario.client 4 20000 ++ Scenario.rx 3 ++
    [.strangerRecv Scenario.strangerAddr (Scenario.strangerHello Scenario.roomCode) 30000 30000,
      .host (.wake 30)] ++ Scenario.host 3 30000 ++
    [.clientRecv 4 31000 31000, .client (.wake 31)]

/-- The stranger leaves. -/
def farewell : List SessionLabel :=
  [.strangerRecv Scenario.strangerAddr (stampedDatagram 1 .bye Scenario.cfg.host.sessionId 2) 40000 40000,
    .host (.wake 40)] ++ Scenario.host 2 40000

/-- The stranger joins and leaves again, and the ROSTER of the farewell overtakes the one before. -/
def rosterOvertaken : List SessionLabel :=
  Scenario.hello ++ Scenario.join 20 ++ Scenario.client 4 20000 ++ Scenario.rx 3 ++
    [.strangerRecv Scenario.strangerAddr (Scenario.strangerHello Scenario.roomCode) 30000 30000,
      .host (.wake 30)] ++ Scenario.host 11 30000 ++ Scenario.rx 3 ++ farewell ++
    [.clientRecv 5 41000 41000, .client (.wake 41)] ++ Scenario.client 5 41000 ++
    [.clientRecv 4 42000 42000, .client (.wake 42)]

theorem roster_of_joined_next : ∃ w, Runs Scenario.cfg (fun _ _ => True) rosterOvertaken w ∧
    w.2.rosters = [(5, true), (4, false)] ∧
    ∃ e ∈ w.2.rosters, (∃ header, Carries Scenario.cfg w.1 e.1 header (.roster w.1.client.roster)) ∧
      ∀ e' ∈ w.2.rosters, (w.2.note e'.1).stamp ≤ (w.2.note e.1).stamp := by
  obtain ⟨w, hr, hp⟩ := Runs.of_test Scenario.cfg rosterOvertaken (fun _ _ => true)
    (fun w => w.1.client.shared.joined && decide (w.1.client.tasks = []) &&
      decide (w.2.rosters = [(5, true), (4, false)]) && decide ((w.2.note 4).stamp = 2) &&
      decide ((w.2.note 5).stamp = 3)) (c := fun _ _ => True) (fun _ _ _ => trivial)
    (by decide +kernel)
  simp only [Bool.and_eq_true, decide_eq_true_eq] at hp
  obtain ⟨⟨⟨⟨hj, ht⟩, hlog⟩, hold⟩, hnew⟩ := hp
  refine ⟨w, hr, hlog, (roster_of_joined Scenario.cfg _ w hr hj ?_ ?_).2 (by rw [hlog]; simp)⟩
  · rintro (⟨_, _, _, hmem⟩ | ⟨_, hmem⟩) <;> rw [ht] at hmem <;> cases hmem
  · intro e he e' he'
    rw [hlog] at he he'
    simp only [List.mem_cons, List.not_mem_nil, or_false] at he he'
    rcases he with rfl | rfl <;> rcases he' with rfl | rfl <;> dsimp only <;> omega

/-- The client's machine has not begun a second handshake. -/
def FirstAttempt (w : Watched) (_ : SessionLabel) : Prop :=
  (∀ failure, w.1.client.cs.phase ≠ .failed failure) ∧
    (w.2.accepted.isSome = true → w.1.client.cs.isJoined = true)

/-- The `i`-th datagram is a WELCOME or a ROSTER for the client and carries these players. -/
def BearsRoster (cfg : SessionConfig) (s : Session) (i : Nat) (players : List PlayerInfo) : Prop :=
  ∃ header, Carries cfg s i header (.roster players) ∨
    ∃ id sessionId sampleRate frameSamples codec, Carries cfg s i header
      (.welcome id sessionId sampleRate frameSamples codec players)

/-- The datagrams that arrive at the client. -/
def received (ls : List SessionLabel) : List Nat :=
  ls.filterMap fun
    | .clientRecv i _ _ => some i
    | _ => none

/-- The WELCOME is delayed. A stranger joins, and the ROSTER with the two of them overtakes it. -/
def overtaken : List SessionLabel :=
  Scenario.hello ++ Scenario.rx 3 ++
    [.strangerRecv Scenario.strangerAddr (Scenario.strangerHello Scenario.roomCode) 30000 30000,
      .host (.wake 30)] ++ Scenario.host 3 30000 ++
    [.clientRecv 3 31000 31000, .client (.wake 31)] ++ Scenario.client 5 31000 ++ Scenario.join 32

/-- The roster of the host with the client and the stranger. -/
def both : List PlayerInfo := [⟨0, "host"⟩, ⟨1, "ann"⟩, ⟨2, "bob"⟩]

/-- The test for `FirstAttempt`. -/
def isFirstAttempt (w : Watched) (_ : SessionLabel) : Bool :=
  (match w.1.client.cs.phase with
    | .failed _ => false
    | _ => true) && (!w.2.accepted.isSome || w.1.client.cs.isJoined)

theorem firstAttempt_of_test (w : Watched) (l : SessionLabel) (h : isFirstAttempt w l = true) :
    FirstAttempt w l := by
  obtain ⟨h1, h2⟩ := (Bool.and_eq_true _ _).mp h
  refine ⟨fun failure hf => ?_, fun hs => ?_⟩
  · rw [hf] at h1
    cases h1
  · rw [hs] at h2
    exact h2

/-- A datagram from the host to the client that carries this roster. -/
def bringsRoster (players : List PlayerInfo) (e : Envelope) : Bool :=
  e.src = Scenario.hostAddr && e.dst = Scenario.clientAddr &&
    match parseDatagram (e.bytes.take maxDatagram) with
    | some (.ok (_, .control control)) => control = .roster players
    | _ => false

theorem carries_of_test {s : Session} {i : Nat} {players : List PlayerInfo}
    (h : s.net[i]?.any (bringsRoster players) = true) :
    ∃ header, Carries Scenario.cfg s i header (.roster players) := by
  obtain ⟨e, he, hbrings⟩ := (Option.any_eq_true _ _).mp h
  simp only [bringsRoster, Bool.and_eq_true, decide_eq_true_eq] at hbrings
  obtain ⟨⟨hsrc, hdst⟩, hparse⟩ := hbrings
  split at hparse
  · rename_i header control hparses
    rw [decide_eq_true_eq] at hparse
    exact ⟨header, e, he, hsrc, hdst, hparse ▸ hparses⟩
  · cases hparse

/-- The older roster of the WELCOME replaces it. -/
theorem roster_overtaken : ¬ ∀ (cfg : SessionConfig) (ls : List SessionLabel) (w : Watched),
    Runs cfg FirstAttempt ls w → w.2.stamped < 32768 → w.1.client.shared.joined = true →
      ¬ w.1.client.Joining → ∀ i players, i ∈ received ls → BearsRoster cfg w.1 i players →
        (∀ i' players', i' ∈ received ls → BearsRoster cfg w.1 i' players' →
          (w.2.note i').stamp ≤ (w.2.note i).stamp) →
        w.1.client.roster = players := by
  intro hall
  obtain ⟨w, hr, hp⟩ := Runs.of_test Scenario.cfg overtaken isFirstAttempt
    (fun w => decide (w.2.stamped < 32768) && w.1.client.shared.joined &&
      decide (w.1.client.tasks = []) && decide (w.1.client.roster ≠ both) &&
      decide ((w.2.note 1).stamp ≤ (w.2.note 3).stamp) && w.1.net[3]?.any (bringsRoster both))
    firstAttempt_of_test (by decide +kernel)
  simp only [Bool.and_eq_true, decide_eq_true_eq, and_assoc] at hp
  obtain ⟨hstamped, hj, ht, hne, hle, hnet⟩ := hp
  obtain ⟨header, hcarries⟩ := carries_of_test hnet
  refine hne (hall Scenario.cfg overtaken w hr hstamped hj ?_ 3 both (by decide) ⟨header, .inl hcarries⟩ ?_)
  · rintro (⟨_, _, _, hmem⟩ | ⟨_, hmem⟩) <;> rw [ht] at hmem <;> cases hmem
  · intro i' _ hi' _
    have hi' : i' ∈ [3, 1] := hi'
    rcases List.mem_cons.mp hi' with rfl | hi'
    · exact le_rfl
    · obtain rfl := List.mem_singleton.mp hi'
      exact hle

end Session

end OnlineJam
