import OnlineJam.Core.ClockLog
import OnlineJam.Core.Scenario
import OnlineJam.Proofs.SessionProofs

/-!
# Proofs: the round-trip times a client measures

A PONG carries the clocks at which its PING was sent, received and answered. Those of the host show up as a
difference only, so that the offset between the clocks cancels out, and so does the time the host took.
-/

namespace OnlineJam

open OnlineJam.Lib

/-- The sample is the sum of the two times on the way. -/
theorem rttFromPong_between {skewUs : Int} {loUs hiUs rxUs : Nat} {t1Us t2Us t3Us : UInt64}
    (hping : loUs ≤ t2Us.toNat - skewUs - t1Us.toNat ∧ t2Us.toNat - skewUs - t1Us.toNat ≤ hiUs)
    (hanswer : t2Us.toNat ≤ t3Us.toNat)
    (hpong : loUs ≤ rxUs - (t3Us.toNat - skewUs) ∧ rxUs - (t3Us.toNat - skewUs) ≤ hiUs) :
    2 * loUs ≤ rttFromPong rxUs t1Us t2Us t3Us ∧ rttFromPong rxUs t1Us t2Us t3Us ≤ 2 * hiUs := by
  unfold rttFromPong
  omega

/-! ## PINGs and PONGs on the wire -/

theorem Control.of_wire_ping {control : Control} {t1Us : UInt64} (h : control.wire = .ping t1Us) :
    control = .ping t1Us := by
  cases control <;> first | exact h | cases h

theorem Control.of_wire_pong {control : Control} {t1Us t2Us t3Us : UInt64}
    (h : control.wire = .pong t1Us t2Us t3Us) : control = .pong t1Us t2Us t3Us := by
  cases control <;> first | exact h | cases h

/-- A stamped packet that reads as a PING is one. -/
theorem of_stamped_ping {seq sessionId senderId : UInt16} {control : Control} (hr : control.RosterFits)
    {header : Header} {t1Us : UInt64}
    (hp : Parses (stampedDatagram seq control sessionId senderId) header (.control (.ping t1Us))) :
    control = .ping t1Us :=
  Control.of_wire_ping (Payload.control.inj ((parses_stampedDatagram _ _ _ hr).unique hp).2)

theorem of_stamped_pong {seq sessionId senderId : UInt16} {control : Control} (hr : control.RosterFits)
    {header : Header} {t1Us t2Us t3Us : UInt64}
    (hp : Parses (stampedDatagram seq control sessionId senderId) header
      (.control (.pong t1Us t2Us t3Us))) : control = .pong t1Us t2Us t3Us :=
  Control.of_wire_pong (Payload.control.inj ((parses_stampedDatagram _ _ _ hr).unique hp).2)

/-- The control loop of the host sends no PONG. -/
theorem HostTask.Vouched.packet_ne_pong {hs : HostHandshake} {task : HostTask} {nowUs : Nat}
    {dst : SocketAddr} {control : Control} (h : task.Vouched hs)
    (hp : task.packet nowUs = some (dst, control)) (t1Us t2Us t3Us : UInt64) :
    control ≠ .pong t1Us t2Us t3Us := by
  cases task with
  | act action =>
    cases action with
    | send d c =>
      obtain ⟨rfl, rfl⟩ := Prod.mk.inj (Option.some.inj hp)
      rintro rfl
      exact h
    | clientJoined sender name => cases hp
    | clientLeft sender reason => cases hp
  | ping d | keepalive d | bye d =>
    obtain ⟨rfl, rfl⟩ := Prod.mk.inj (Option.some.inj hp)
    intro he
    cases he

/-- A PONG of the host answers a PING with its clocks. -/
theorem Host.receive_reply {h h' : Host} {src : SocketAddr} {bytes : Bytes} {nowUs t3Us : Nat}
    {o : Outgoing} (hr : h.receive src bytes nowUs t3Us = some (h', some o)) :
    o.dst = src ∧ ∃ header header' t1Us, Parses bytes header (.control (.ping t1Us)) ∧
      Parses o.bytes header' (.control (.pong t1Us (UInt64.ofNat nowUs) (UInt64.ofNat t3Us))) := by
  unfold Host.receive at hr
  split at hr
  · obtain ⟨-, ho⟩ := Prod.mk.inj (Option.some.inj hr)
    obtain ⟨b, hb, rfl⟩ := Option.map_eq_some_iff.mp ho
    unfold routeHost at hb
    split at hb
    · rename_i header t1Us hping
      obtain ⟨b', hb', hp⟩ := parses_pongReply header hostSenderId t1Us nowUs t3Us
      obtain rfl := Option.some.inj (hb'.symm.trans hb)
      exact ⟨rfl, _, _, _, hping, hp⟩
    · split at hb
      · cases hb
      · split at hb
        · cases hb
        · split at hb <;> cases hb
    · cases hb
    · cases hb
  · cases hr

namespace Client

/-- The answer of a client is no PING. -/
theorem receive_reply_ne_ping {c c' : Client} {src : SocketAddr} {bytes : Bytes} {nowUs t3Us : Nat}
    {o : Outgoing} (hr : c.receive src bytes nowUs t3Us = some (c', some o)) {header : Header}
    {t1Us : UInt64} : ¬ Parses o.bytes header (.control (.ping t1Us)) := by
  intro hp
  obtain ⟨_, _, _, _, hpong⟩ := (receive_spec hr).reply o rfl
  cases Payload.control.inj (hpong.unique hp).2

/-- A PONG that is passed on comes from the host, with the clock at which it came. -/
theorem receive_event {c c' : Client} {src : SocketAddr} {bytes : Bytes} {nowUs t3Us : Nat}
    {o : Option Outgoing} (hr : c.receive src bytes nowUs t3Us = some (c', o)) :
    c'.shared.fromHost.rttUs = c.shared.fromHost.rttUs ∧
      (c'.events = c.events ∨ ∃ header control, src = c.cfg.hostAddr ∧
        Parses bytes header (.control control) ∧ c'.events = c.events ++ [⟨src, header, control, nowUs⟩]) := by
  unfold receive at hr
  split at hr
  · cases hr
  obtain ⟨rfl, -⟩ := Prod.mk.inj (Option.some.inj hr)
  unfold routeClient
  split
  · exact ⟨rfl, .inl (List.append_nil _)⟩
  · split
    · exact ⟨rfl, .inl (List.append_nil _)⟩
    · exact ⟨rfl, .inl (List.append_nil _)⟩
  · rename_i header control _ hp
    split
    · exact ⟨rfl, .inl (List.append_nil _)⟩
    · rename_i hsrc
      exact ⟨rfl, .inr ⟨header, control, not_not.mp hsrc, hp, rfl⟩⟩
  · exact ⟨rfl, .inl (List.append_nil _)⟩

/-- What is sent reads as a PING only if it is one. -/
theorem ping_of_send {c c' : Client} {control : Control} {sessionId : UInt16} {o : Outgoing}
    (hs : c.send control sessionId = (c', some o)) (hr : control.RosterFits) {header : Header}
    {t1Us : UInt64} (hp : Parses o.bytes header (.control (.ping t1Us))) : control = .ping t1Us := by
  obtain ⟨-, ho⟩ := Prod.mk.inj hs
  have hb : o.bytes = stampedDatagram c.seq.next.1 control sessionId c.shared.senderId := by
    rw [← Option.some.inj ho]
  rw [hb] at hp
  exact of_stamped_ping hr hp

/-- A PING carries the clock at which it is sent. -/
theorem step_ping {c c' : Client} {l : ClientLabel} {o : Outgoing} (hi : c.Inv)
    (hs : c.step l = some (c', some o)) {header : Header} {t1Us : UInt64}
    (hp : Parses o.bytes header (.control (.ping t1Us))) :
    ∃ nowUs, l = .control nowUs ∧ t1Us = UInt64.ofNat nowUs := by
  rcases step_cases hs with ⟨nowUs, task, tasks, rfl, htasks, ht⟩ | ⟨nowUs, rfl, htasks, ha⟩ |
    ⟨nowMs, rfl, htasks, rfl, hout⟩ | ⟨_, _, _, _, _, _, hout⟩
  · -- No task sends a PING.
    cases task with
    | act action =>
      cases action with
      | send control =>
        have hc := hi.sends control (by rw [htasks]; exact List.mem_cons_self)
        have hping := ping_of_send ht (by rw [hc]; trivial) hp
        rw [hc] at hping
        cases hping
      | startAudio senderId sessionId params => cases (Prod.mk.inj ht).2
      | rosterUpdate roster => cases (Prod.mk.inj ht).2
      | failed failure => cases (Prod.mk.inj ht).2
    | ack header' sessionId =>
      have hping := ping_of_send ht trivial hp
      cases hping
    | bye =>
      have hping := ping_of_send ht trivial hp
      cases hping
  · unfold advance at ha
    split at ha
    · split at ha <;> cases (Prod.mk.inj (Option.some.inj ha)).2
    · cases (Prod.mk.inj (Option.some.inj ha)).2
    · split at ha <;> cases (Prod.mk.inj (Option.some.inj ha)).2
    · split at ha
      · have hping := ping_of_send (Option.some.inj ha) trivial hp
        exact ⟨nowUs, rfl, (Control.ping.inj hping).symm⟩
      · cases (Prod.mk.inj (Option.some.inj ha)).2
    · split at ha
      · have hping := ping_of_send (Option.some.inj ha) trivial hp
        cases hping
      · cases (Prod.mk.inj (Option.some.inj ha)).2
    · cases ha
    · cases ha
  · cases hout
  · rcases hout with hout | ⟨encoded, _, ha⟩
    · cases hout
    obtain ⟨⟨dgram, pipeline⟩, hframe, he⟩ := Option.map_eq_some_iff.mp ha
    obtain ⟨d, hd, rfl⟩ := Option.map_eq_some_iff.mp (Prod.mk.inj he).2
    rw [hd] at hframe
    exact absurd hp (ClientPipeline.noControl_processFrame hframe header _)

theorem perform_rttUs (c : Client) (nowUs : Nat) (task : ClientTask) :
    (c.perform nowUs task).1.shared.fromHost.rttUs = c.shared.fromHost.rttUs := by
  rcases task with ⟨control | _ | _ | failure⟩ | _ | _
  all_goals try rfl
  cases failure with
  | denied reason => rfl
  | timeout =>
    show (c.failed .timeout).shared.fromHost.rttUs = _
    unfold failed
    dsimp only
    split <;> rfl

theorem advance_rttUs {c c' : Client} {nowUs : Nat} {o : Option Outgoing}
    (ha : c.advance nowUs = some (c', o)) : c'.shared.fromHost.rttUs = c.shared.fromHost.rttUs := by
  unfold advance at ha
  split at ha
  · split at ha <;> obtain ⟨rfl, -⟩ := Prod.mk.inj (Option.some.inj ha) <;> rfl
  · obtain ⟨rfl, -⟩ := Prod.mk.inj (Option.some.inj ha)
    rfl
  · split at ha <;> obtain ⟨rfl, -⟩ := Prod.mk.inj (Option.some.inj ha) <;> rfl
  · split at ha <;> obtain ⟨rfl, -⟩ := Prod.mk.inj (Option.some.inj ha) <;> rfl
  · split at ha <;> obtain ⟨rfl, -⟩ := Prod.mk.inj (Option.some.inj ha) <;> rfl
  · cases ha
  · cases ha

theorem dispatch_rttUs (c : Client) (ev : CtrlEvent) :
    (c.dispatch ev).shared.fromHost.rttUs = c.shared.fromHost.rttUs ∨
      ∃ t1Us t2Us t3Us, ev.control = .pong t1Us t2Us t3Us ∧
        (c.dispatch ev).shared.fromHost.rttUs =
          updateRtt c.shared.fromHost.rttUs (rttFromPong ev.rxUs t1Us t2Us t3Us) := by
  cases h : ev.control with
  | pong t1Us t2Us t3Us =>
    right
    refine ⟨t1Us, t2Us, t3Us, rfl, ?_⟩
    rw [dispatch, h]
  | bye =>
    left
    rw [dispatch, h]
    dsimp only
    split <;> rfl
  | _ =>
    left
    rw [dispatch, h]

theorem mem_events_of_wake {c c' : Client} {nowMs : Nat} {o : Option Outgoing}
    (hs : c.step (.wake nowMs) = some (c', o)) {ev : CtrlEvent} (hmem : ev ∈ c'.events) :
    ev ∈ c.events := by
  rcases step_cases hs with ⟨_, _, _, hl, _⟩ | ⟨_, hl, _⟩ | ⟨_, hl, htasks, rfl, _⟩ | ⟨_, hl, _⟩
  · cases hl
  · cases hl
  · obtain rfl := ClientLabel.wake.inj hl
    rcases wake_cases nowMs htasks with ⟨_, hsame, _⟩ | ⟨first, rest, hev, hd⟩
    · exact hsame.events ▸ hmem
    · rw [hd.events] at hmem
      rw [hev]
      exact List.mem_cons_of_mem _ hmem
  · exact absurd rfl (hl nowMs)

/-- Only a PONG that the control loop takes moves the estimate. -/
theorem step_rttUs {c c' : Client} {l : ClientLabel} {o : Option Outgoing} (hs : c.step l = some (c', o)) :
    c'.shared.fromHost.rttUs = c.shared.fromHost.rttUs ∨
      ∃ ev ∈ c.events, ∃ t1Us t2Us t3Us, ev.control = .pong t1Us t2Us t3Us ∧
        c'.shared.fromHost.rttUs =
          updateRtt c.shared.fromHost.rttUs (rttFromPong ev.rxUs t1Us t2Us t3Us) := by
  cases l with
  | control nowUs =>
    left
    rw [step] at hs
    split at hs
    · rename_i task tasks htasks
      have hp := perform_rttUs { c with tasks := tasks } nowUs task
      rwa [Option.some.inj hs] at hp
    · exact advance_rttUs hs
  | wake nowMs =>
    rw [step] at hs
    split at hs
    · obtain ⟨rfl, -⟩ := Prod.mk.inj (Option.some.inj hs)
      unfold wake
      split
      · rename_i ev events hev
        rcases dispatch_rttUs { c with nowMs := nowMs, events := events } ev with hsame |
          ⟨t1Us, t2Us, t3Us, hpong, hrtt⟩
        · exact .inl hsame
        · exact .inr ⟨ev, hev ▸ List.mem_cons_self, t1Us, t2Us, t3Us, hpong, hrtt⟩
      · split <;> exact .inl rfl
    · cases hs
  | audio encoded =>
    obtain ⟨⟨dgram, pipeline⟩, hp, he⟩ := Option.map_eq_some_iff.mp hs
    obtain ⟨rfl, -⟩ := Prod.mk.inj he
    exact .inl rfl
  | rxStop =>
    rw [step] at hs
    split at hs
    · obtain ⟨rfl, -⟩ := Prod.mk.inj (Option.some.inj hs)
      exact .inl rfl
    · cases hs
  | shutdown =>
    obtain ⟨rfl, -⟩ := Prod.mk.inj (Option.some.inj hs)
    exact .inl rfl

end Client

/-! ## A run -/

section Honest

variable {cfg : SessionConfig} {skewUs : Int} {loUs hiUs : Nat}

/-- What holds between any two steps of a timely run. -/
structure Honest (cfg : SessionConfig) (skewUs : Int) (loUs hiUs : Nat) (s : Session)
    (sentAt : Nat → Nat) : Prop where
  pings : ∀ i e header t1Us, s.net[i]? = some e → e.src = cfg.clientAddr →
    Parses e.bytes header (.control (.ping t1Us)) → t1Us.toNat = sentAt i
  pongs : ∀ i e header t1Us t2Us t3Us, s.net[i]? = some e → e.src = cfg.hostAddr →
    e.dst = cfg.clientAddr → Parses e.bytes header (.control (.pong t1Us t2Us t3Us)) →
      (loUs ≤ t2Us.toNat - skewUs - t1Us.toNat ∧ t2Us.toNat - skewUs - t1Us.toNat ≤ hiUs) ∧
        t2Us.toNat ≤ t3Us.toNat ∧ t3Us.toNat = sentAt i
  events : ∀ ev ∈ s.client.events, ∀ t1Us t2Us t3Us, ev.control = .pong t1Us t2Us t3Us →
    2 * loUs ≤ rttFromPong ev.rxUs t1Us t2Us t3Us ∧ rttFromPong ev.rxUs t1Us t2Us t3Us ≤ 2 * hiUs

theorem honest_init : Honest cfg skewUs loUs hiUs (Session.init cfg) fun _ => 0 where
  pings := by
    intro i e header t1Us hi
    cases hi
  pongs := by
    intro i e header t1Us t2Us t3Us hi
    cases hi
  events := by
    intro ev hev
    cases hev

/-- A PING of the client that is sent carries its clock. -/
theorem Session.Event.ping {s t : Session} {l : SessionLabel} {e : Envelope} {header : Header}
    {t1Us : UInt64} (hev : Event cfg s l t) (hi : s.client.Inv) (hn : t.net = s.net ++ [e])
    (hsrc : e.src = cfg.clientAddr) (hp : Parses e.bytes header (.control (.ping t1Us))) :
    ∃ nowUs, l = .client (.control nowUs) ∧ t1Us = UInt64.ofNat nowUs := by
  cases hev with
  | host hs =>
    obtain ⟨o, -, rfl⟩ := of_post hn
    exact absurd hsrc cfg.distinct
  | hostRecv _ _ hr =>
    obtain ⟨o, -, rfl⟩ := of_post hn
    exact absurd hsrc cfg.distinct
  | strangerRecv _ _ hr =>
    obtain ⟨o, -, rfl⟩ := of_post hn
    exact absurd hsrc cfg.distinct
  | @client cl r hs =>
    obtain ⟨c', out⟩ := r
    obtain ⟨o, rfl, rfl⟩ := of_post hn
    obtain ⟨nowUs, rfl, ht⟩ := Client.step_ping hi hs hp
    exact ⟨nowUs, rfl, ht⟩
  | @clientRecv i nowUs t3Us e' r _ _ hr =>
    obtain ⟨c', out⟩ := r
    obtain ⟨o, rfl, rfl⟩ := of_post hn
    exact absurd hp (Client.receive_reply_ne_ping hr)

/-- A PONG that is sent to the client answers a PING of the client. -/
theorem Session.Event.pong {s t : Session} {l : SessionLabel} {e : Envelope} {header : Header}
    {t1Us t2Us t3Us : UInt64} (hev : Event cfg s l t) (hi : s.host.Inv) (hring : s.host.RingInv)
    (hn : t.net = s.net ++ [e]) (hsrc : e.src = cfg.hostAddr) (hdst : e.dst = cfg.clientAddr)
    (hp : Parses e.bytes header (.control (.pong t1Us t2Us t3Us))) :
    ∃ i nowUs doneUs e' header', l = .hostRecv i nowUs doneUs ∧ s.net[i]? = some e' ∧
      e'.src = cfg.clientAddr ∧ Parses e'.bytes header' (.control (.ping t1Us)) ∧
      t2Us = UInt64.ofNat nowUs ∧ t3Us = UInt64.ofNat doneUs := by
  cases hev with
  | @host hl r hs =>
    obtain ⟨h', out⟩ := r
    obtain ⟨o, rfl, rfl⟩ := of_post hn
    cases Host.move_of_step hs with
    | sends ht hpacket =>
      have hv := hi.tasks _ (ht ▸ List.mem_cons_self)
      have hpong := of_stamped_pong (hv.packet hpacket).1 hp
      exact absurd hpong (hv.packet_ne_pong hpacket _ _ _)
    | transmits hr _ _ _ =>
      have haudio := (hring _ (hr ▸ List.mem_cons_self)).2
      exact absurd hp (haudio _ _)
  | @hostRecv i nowUs doneUs e' r hi' _ hr =>
    obtain ⟨h', out⟩ := r
    obtain ⟨o, rfl, rfl⟩ := of_post hn
    obtain ⟨hsrc', header', header'', t1Us', hping, hpong⟩ := Host.receive_reply hr
    obtain ⟨rfl, rfl, rfl⟩ := Control.pong.inj (Payload.control.inj (hpong.unique hp).2)
    exact ⟨i, nowUs, doneUs, e', header', rfl, hi', hsrc'.symm.trans hdst, hping, rfl, rfl⟩
  | @strangerRecv src bytes nowUs doneUs r _ hc hr =>
    obtain ⟨h', out⟩ := r
    obtain ⟨o, rfl, rfl⟩ := of_post hn
    exact absurd ((Host.receive_reply hr).1.symm.trans hdst) hc
  | client hs =>
    obtain ⟨o, -, rfl⟩ := of_post hn
    exact absurd hsrc.symm cfg.distinct
  | clientRecv _ _ hr =>
    obtain ⟨o, -, rfl⟩ := of_post hn
    exact absurd hsrc.symm cfg.distinct

/-- A datagram after a step was there before, or it is the one just sent. -/
theorem Session.Event.stamped {s t : Session} {l : ClockedLabel} (hev : Event cfg s l.label t)
    (g : SessionLog) (sentAt : Nat → Nat) (w : Watched) {i : Nat} {e : Envelope}
    (hi : t.net[i]? = some e) :
    (s.net[i]? = some e ∧ ClockedSession.stamp sentAt (s, g) l w i = sentAt i) ∨
      (t.net = s.net ++ [e] ∧ ClockedSession.stamp sentAt (s, g) l w i = l.clockUs) := by
  rcases hev.net_cases (g := g) hi with ⟨hold, -⟩ | ⟨hn, rfl, -⟩
  · exact .inl ⟨hold, Function.update_of_ne (Nat.ne_of_lt (lt_of_net hold)) _ _⟩
  · exact .inr ⟨hn, Function.update_self _ _ _⟩

section Step

variable {s t : Session} {g : SessionLog} {l : ClockedLabel} {sentAt : Nat → Nat} {w : Watched}

theorem Honest.step_pings (h : Honest cfg skewUs loUs hiUs s sentAt) (hev : Session.Event cfg s l.label t)
    (hclock : ∀ clockUs, l.label.clockUs = some clockUs → l.clockUs = clockUs)
    (hc : ClockedSession.Timely skewUs loUs hiUs ((s, g), sentAt) l) (hi : s.client.Inv) :
    ∀ i e header t1Us, t.net[i]? = some e → e.src = cfg.clientAddr →
      Parses e.bytes header (.control (.ping t1Us)) →
        t1Us.toNat = ClockedSession.stamp sentAt (s, g) l w i := by
  intro i e header t1Us hn hsrc hp
  rcases hev.stamped g sentAt w hn with ⟨hold, hat⟩ | ⟨hnew, hat⟩
  · rw [hat]
    exact h.pings i e header t1Us hold hsrc hp
  · obtain ⟨nowUs, hl, rfl⟩ := hev.ping hi hnew hsrc hp
    rw [hat, hclock nowUs (by rw [hl, SessionLabel.clockUs])]
    rw [ClockedSession.Timely, hl] at hc
    exact UInt64.toNat_ofNat_of_lt' hc

theorem Honest.step_pongs (h : Honest cfg skewUs loUs hiUs s sentAt) (hev : Session.Event cfg s l.label t)
    (hclock : ∀ clockUs, l.label.clockUs = some clockUs → l.clockUs = clockUs)
    (hc : ClockedSession.Timely skewUs loUs hiUs ((s, g), sentAt) l) (hi : s.host.Inv)
    (hring : s.host.RingInv) :
    ∀ i e header t1Us t2Us t3Us, t.net[i]? = some e → e.src = cfg.hostAddr → e.dst = cfg.clientAddr →
      Parses e.bytes header (.control (.pong t1Us t2Us t3Us)) →
        (loUs ≤ t2Us.toNat - skewUs - t1Us.toNat ∧ t2Us.toNat - skewUs - t1Us.toNat ≤ hiUs) ∧
          t2Us.toNat ≤ t3Us.toNat ∧ t3Us.toNat = ClockedSession.stamp sentAt (s, g) l w i := by
  intro i e header t1Us t2Us t3Us hn hsrc hdst hp
  rcases hev.stamped g sentAt w hn with ⟨hold, hat⟩ | ⟨hnew, hat⟩
  · rw [hat]
    exact h.pongs i e header t1Us t2Us t3Us hold hsrc hdst hp
  · obtain ⟨j, nowUs, doneUs, e', header', hl, hj, hsrc', hping, rfl, rfl⟩ :=
      hev.pong hi hring hnew hsrc hdst hp
    rw [ClockedSession.Timely, hl] at hc
    obtain ⟨htrip, hanswer, hdone⟩ := hc
    have hsent := h.pings j e' header' t1Us hj hsrc' hping
    have hnow : (UInt64.ofNat nowUs).toNat = nowUs :=
      UInt64.toNat_ofNat_of_lt' (Nat.lt_of_le_of_lt hanswer hdone)
    have hthen : (UInt64.ofNat doneUs).toNat = doneUs := UInt64.toNat_ofNat_of_lt' hdone
    rw [hat, hclock doneUs (by rw [hl, SessionLabel.clockUs]), hnow, hthen, hsent]
    exact ⟨htrip, hanswer, rfl⟩

theorem Honest.step_events (h : Honest cfg skewUs loUs hiUs s sentAt) (hev : Session.Event cfg s l.label t)
    (hc : ClockedSession.Timely skewUs loUs hiUs ((s, g), sentAt) l) (hcfg : s.client.cfg = cfg.client) :
    ∀ ev ∈ t.client.events, ∀ t1Us t2Us t3Us, ev.control = .pong t1Us t2Us t3Us →
      2 * loUs ≤ rttFromPong ev.rxUs t1Us t2Us t3Us ∧
        rttFromPong ev.rxUs t1Us t2Us t3Us ≤ 2 * hiUs := by
  obtain ⟨l, clockUs⟩ := l
  cases hev with
  | host _ => exact h.events
  | hostRecv _ _ _ => exact h.events
  | strangerRecv _ _ _ => exact h.events
  | @client cl r hs =>
    obtain ⟨c', out⟩ := r
    intro ev hmem
    have hmem' : ev ∈ s.client.events := by
      by_cases hw : ∃ nowMs, cl = .wake nowMs
      · obtain ⟨nowMs, rfl⟩ := hw
        exact Client.mem_events_of_wake hs hmem
      · rw [← Client.step_events hs fun nowMs he => hw ⟨nowMs, he⟩]
        exact hmem
    exact h.events ev hmem'
  | @clientRecv i nowUs doneUs e r hn hd hr =>
    obtain ⟨c', out⟩ := r
    intro ev hmem t1Us t2Us t3Us hpong
    rcases (Client.receive_event hr).2 with hsame | ⟨header, control, hsrc, hp, hnew⟩
    · exact h.events ev (hsame ▸ hmem) t1Us t2Us t3Us hpong
    · rcases List.mem_append.mp (hnew ▸ hmem) with hold | hlast
      · exact h.events ev hold t1Us t2Us t3Us hpong
      · obtain rfl := List.mem_singleton.mp hlast
        obtain rfl : control = .pong t1Us t2Us t3Us := hpong
        rw [hcfg] at hsrc
        obtain ⟨htrip, hanswer, hat⟩ := h.pongs i e header t1Us t2Us t3Us hn hsrc hd hp
        have hback : loUs ≤ nowUs - (sentAt i - skewUs) ∧ nowUs - (sentAt i - skewUs) ≤ hiUs := hc
        rw [← hat] at hback
        exact rttFromPong_between htrip hanswer hback

end Step

end Honest

namespace ClockedSession

theorem Runs.honest {cfg : SessionConfig} {skewUs : Int} {loUs hiUs : Nat} {ls : List ClockedLabel}
    {w : ClockedSession} (h : Runs cfg (Timely skewUs loUs hiUs) ls w) :
    Honest cfg skewUs loUs hiUs w.1.1 w.2 := by
  refine h.invariant (p := fun w => Honest cfg skewUs loUs hiUs w.1.1 w.2) honest_init
    fun ls v l u hr hp hc hs => ?_
  obtain ⟨hs, hat⟩ := watch_eq_some.mp hs
  obtain ⟨hclock, hs⟩ := step_eq_some hs
  have hrun := Runs.session hr
  have hev := Session.event_of_step (watch_eq_some.mp hs).1
  obtain ⟨⟨s, g⟩, sentAt⟩ := v
  rw [hat]
  exact ⟨hp.step_pings hev hclock hc hrun.client_inv.1,
    hp.step_pongs hev hclock hc hrun.host_inv.1 hrun.mirrored.2, hp.step_events hev hc hrun.client_inv.2⟩

/-- In a run in which every datagram between the two that arrives has been on its way for `loUs` to `hiUs`,
each round-trip time that the client takes into its estimate is between twice the one and twice the other:
whatever the offset between the clocks, however long the host takes to answer, whatever is lost, duplicated
or reordered, and whoever else talks to the host. -/
theorem samples_honest (cfg : SessionConfig) (skewUs : Int) (loUs hiUs : Nat) (ls : List ClockedLabel)
    (w : ClockedSession) (h : Runs cfg (Timely skewUs loUs hiUs) ls w) (l : SessionLabel) (t : Session)
    (hs : Session.step cfg w.1.1 l = some t) :
    t.client.shared.fromHost.rttUs = w.1.1.client.shared.fromHost.rttUs ∨
      ∃ sampleUs, 2 * loUs ≤ sampleUs ∧ sampleUs ≤ 2 * hiUs ∧
        t.client.shared.fromHost.rttUs = updateRtt w.1.1.client.shared.fromHost.rttUs sampleUs := by
  cases Session.event_of_step hs with
  | host _ => exact .inl rfl
  | hostRecv _ _ _ => exact .inl rfl
  | strangerRecv _ _ _ => exact .inl rfl
  | @client cl r hcl =>
    obtain ⟨c', out⟩ := r
    rcases Client.step_rttUs hcl with hsame | ⟨ev, hmem, t1Us, t2Us, t3Us, hpong, hrtt⟩
    · exact .inl hsame
    · obtain ⟨hlo, hhi⟩ := h.honest.events ev hmem t1Us t2Us t3Us hpong
      exact .inr ⟨_, hlo, hhi, hrtt⟩
  | @clientRecv i nowUs doneUs e r _ _ hr =>
    obtain ⟨c', out⟩ := r
    exact .inl (Client.receive_event hr).1

/-- The client joins and sends a PING, which takes 7 ms to the host. The PONG takes 9 ms back, the clock of the
host is ahead by 1 ms and the host takes 12 ms to answer. Both send a frame, which takes 8 ms to the host and
10 ms to the client. -/
def pinged : List ClockedLabel :=
  clocked 0 (Scenario.hello ++ Scenario.rx 3 ++ Scenario.join 20 ++ Scenario.client 4 20000 ++
    .client (.wake 1030) :: Scenario.client 5 1030000 ++ [.hostRecv 3 1038000 1050000]) ++
  clocked 1046000 [.client (.audio (some [1, 2]))] ++
  clocked 1051000 (Scenario.rx 2 ++ .host (.audio #v[some [3, 4], none, none, none]) ::
    List.replicate 5 (.host .tx) ++
    [.hostRecv 6 1055000 1055000, .clientRecv 5 1058000 1058000, .clientRecv 7 1060000 1060000])

theorem samples_honest_pinged : ∃ w t, Runs Scenario.cfg (Timely 1000 7000 11000) pinged w ∧
    (w.1.1.host.shared.clients 0).lastRxUs = 1055000 ∧ w.1.1.client.shared.fromHost.lastRxUs = 1060000 ∧
    Session.step Scenario.cfg w.1.1 (.client (.wake 1060)) = some t ∧
    t.client.shared.fromHost.rttUs = 16000 ∧
    (t.client.shared.fromHost.rttUs = w.1.1.client.shared.fromHost.rttUs ∨
      ∃ sampleUs, 2 * 7000 ≤ sampleUs ∧ sampleUs ≤ 2 * 11000 ∧
        t.client.shared.fromHost.rttUs = updateRtt w.1.1.client.shared.fromHost.rttUs sampleUs) := by
  obtain ⟨w, hr, hp⟩ := Runs.of_test Scenario.cfg 1000 7000 11000 pinged
    (fun w => decide ((w.1.1.host.shared.clients 0).lastRxUs = 1055000) &&
      decide (w.1.1.client.shared.fromHost.lastRxUs = 1060000) &&
      (Session.step Scenario.cfg w.1.1 (.client (.wake 1060))).any fun t =>
        t.client.shared.fromHost.rttUs = 16000) (by decide +kernel)
  simp only [Bool.and_eq_true, decide_eq_true_eq] at hp
  obtain ⟨⟨hhost, hclient⟩, ht⟩ := hp
  obtain ⟨t, ht, hrtt⟩ := (Option.any_eq_true _ _).mp ht
  exact ⟨w, t, hr, hhost, hclient, ht, of_decide_eq_true hrtt,
    samples_honest Scenario.cfg 1000 7000 11000 pinged w hr _ t ht⟩

end ClockedSession

end OnlineJam
