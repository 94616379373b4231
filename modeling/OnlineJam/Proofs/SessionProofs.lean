import OnlineJam.Core.SessionLog
import OnlineJam.Proofs.ClientProofs
import OnlineJam.Proofs.TableProofs
import OnlineJam.Proofs.SeqProofs

/-!
# Sessions: what is on the network

The kinds of step of a session, the induction over its runs, and what is known of every datagram on
the network.
-/

namespace OnlineJam

open OnlineJam.Lib
open HostHandshake

namespace Session

/-! ## Steps -/

/-- A step, by who moves and on what. -/
inductive Event (cfg : SessionConfig) (s : Session) : SessionLabel → Session → Prop
  | host {l : HostLabel} {r : Host × Option Outgoing} (h : s.host.step l = some r) :
    Event cfg s (.host l) (s.hostMoved cfg r)
  | hostRecv {i nowUs t3Us : Nat} {e : Envelope} {r : Host × Option Outgoing}
    (hn : s.net[i]? = some e) (hd : e.dst = cfg.hostAddr)
    (h : s.host.receive e.src e.bytes nowUs t3Us = some r) :
    Event cfg s (.hostRecv i nowUs t3Us) (s.hostMoved cfg r)
  | strangerRecv {src : SocketAddr} {bytes : Bytes} {nowUs t3Us : Nat} {r : Host × Option Outgoing}
    (hh : src ≠ cfg.hostAddr) (hc : src ≠ cfg.clientAddr)
    (h : s.host.receive src bytes nowUs t3Us = some r) :
    Event cfg s (.strangerRecv src bytes nowUs t3Us) (s.hostMoved cfg r)
  | client {l : ClientLabel} {r : Client × Option Outgoing} (h : s.client.step l = some r) :
    Event cfg s (.client l) (s.clientMoved cfg r)
  | clientRecv {i nowUs t3Us : Nat} {e : Envelope} {r : Client × Option Outgoing}
    (hn : s.net[i]? = some e) (hd : e.dst = cfg.clientAddr)
    (h : s.client.receive e.src e.bytes nowUs t3Us = some r) :
    Event cfg s (.clientRecv i nowUs t3Us) (s.clientMoved cfg r)

theorem arriving_eq_some {s : Session} {dst : SocketAddr} {i : Nat} {e : Envelope}
    (h : s.arriving dst i = some e) : s.net[i]? = some e ∧ e.dst = dst := by
  obtain ⟨hn, hd⟩ := Option.filter_eq_some_iff.mp h
  exact ⟨hn, of_decide_eq_true hd⟩

theorem event_of_step {cfg : SessionConfig} {s t : Session} {l : SessionLabel}
    (h : step cfg s l = some t) : Event cfg s l t := by
  cases l with
  | host l =>
    obtain ⟨r, hr, rfl⟩ := Option.map_eq_some_iff.mp h
    exact .host hr
  | hostRecv i nowUs t3Us =>
    obtain ⟨e, he, h⟩ := Option.bind_eq_some_iff.mp h
    obtain ⟨r, hr, rfl⟩ := Option.map_eq_some_iff.mp h
    obtain ⟨hn, hd⟩ := arriving_eq_some he
    exact .hostRecv hn hd hr
  | strangerRecv src bytes nowUs t3Us =>
    rw [step] at h
    split at h
    · cases h
    · rename_i hsrc
      obtain ⟨r, hr, rfl⟩ := Option.map_eq_some_iff.mp h
      exact .strangerRecv (fun he => hsrc (.inl he)) (fun he => hsrc (.inr he)) hr
  | client l =>
    obtain ⟨r, hr, rfl⟩ := Option.map_eq_some_iff.mp h
    exact .client hr
  | clientRecv i nowUs t3Us =>
    obtain ⟨e, he, h⟩ := Option.bind_eq_some_iff.mp h
    obtain ⟨r, hr, rfl⟩ := Option.map_eq_some_iff.mp h
    obtain ⟨hn, hd⟩ := arriving_eq_some he
    exact .clientRecv hn hd hr

section Runs

variable {cfg : SessionConfig} {c : Watched → SessionLabel → Prop} {ls : List SessionLabel}
  {w : Watched}

/-- Induction over a run, with the whole run up to the step at hand. -/
theorem Runs.induction {p : Session → SessionLog → Prop} (h : Runs cfg c ls w)
    (h0 : p (init cfg) SessionLog.new)
    (hstep : ∀ ls s g l t, Runs cfg c ls (s, g) → p s g → c (s, g) l → Event cfg s l t →
      p t (SessionLog.observe cfg g s l t)) : p w.1 w.2 := by
  refine h.invariant (p := fun w => p w.1 w.2) h0 fun ls t l u hr hp hc hs => ?_
  obtain ⟨hs, hg⟩ := watch_eq_some.mp hs
  rw [hg]
  exact hstep ls t.1 t.2 l u.1 hr hp hc (event_of_step hs)

/-! ## The two processes -/

/-- What holds of the host between any two steps of a session. -/
theorem Runs.host_inv (h : Runs cfg c ls w) :
    w.1.host.Inv ∧ w.1.host.shared.sessionId = cfg.host.sessionId ∧
      w.1.host.hs.roomCode = cfg.host.roomCode := by
  refine h.induction (p := fun s _ => s.host.Inv ∧ s.host.shared.sessionId = cfg.host.sessionId ∧
    s.host.hs.roomCode = cfg.host.roomCode) ⟨Host.inv_new _, rfl, rfl⟩ ?_
  intro ls s g l t _ hi _ hev
  obtain ⟨hi, hid, hcode⟩ := hi
  have received : ∀ {src bytes nowUs t3Us r}, s.host.receive src bytes nowUs t3Us = some r →
      r.1.Inv ∧ r.1.shared.sessionId = cfg.host.sessionId ∧ r.1.hs.roomCode = cfg.host.roomCode := by
    intro src bytes nowUs t3Us r hr
    have hrec := Host.receive_spec (o := r.2) hr
    exact ⟨⟨hrec.hs ▸ hi.distinct, by rw [hrec.hs, hrec.sessionId, hi.sessionId],
      by rw [hrec.hs, hrec.tasks]; exact hi.tasks⟩, by rw [hrec.sessionId, hid], by rw [hrec.hs, hcode]⟩
  cases hev with
  | @host hl r hs =>
    have hm := Host.move_of_step hs
    exact ⟨hm.inv hi, hm.sessionId.trans hid, hm.moves.roomCode.trans hcode⟩
  | hostRecv _ _ hr => exact received hr
  | strangerRecv _ _ hr => exact received hr
  | client _ => exact ⟨hi, hid, hcode⟩
  | clientRecv _ _ _ => exact ⟨hi, hid, hcode⟩

/-- No step moves an address from one slot to another, and a new address has greeted. -/
theorem Event.moves {s t : Session} {l : SessionLabel} (h : Event cfg s l t) :
    Moves s.host.Greeted s.host.hs t.host.hs := by
  have stays : ∀ {src bytes nowUs t3Us r}, s.host.receive src bytes nowUs t3Us = some r →
      Moves s.host.Greeted s.host.hs r.1.hs := by
    intro src bytes nowUs t3Us r hr
    rw [(Host.receive_spec (o := r.2) hr).hs]
    exact (Keeps.refl _).moves
  cases h with
  | host hs => exact (Host.move_of_step hs).moves
  | hostRecv _ _ hr => exact stays hr
  | strangerRecv _ _ hr => exact stays hr
  | client _ => exact (Keeps.refl _).moves
  | clientRecv _ _ _ => exact (Keeps.refl _).moves

/-- What holds of the client between any two steps of a session. -/
theorem Runs.client_inv (h : Runs cfg c ls w) : w.1.client.Inv ∧ w.1.client.cfg = cfg.client := by
  refine h.induction (p := fun s _ => s.client.Inv ∧ s.client.cfg = cfg.client)
    ⟨Client.inv_new _ _ _, rfl⟩ ?_
  intro ls s g l t _ hi _ hev
  obtain ⟨hi, hcfg⟩ := hi
  cases hev with
  | host _ => exact ⟨hi, hcfg⟩
  | hostRecv _ _ _ => exact ⟨hi, hcfg⟩
  | strangerRecv _ _ _ => exact ⟨hi, hcfg⟩
  | client hs => exact ⟨Client.inv_step hi hs, (Client.step_cfg hs).trans hcfg⟩
  | @clientRecv i nowUs t3Us e r _ _ hr =>
    have hrec := Client.receive_spec hr
    have hh : r.1.hello = s.client.hello := by rw [Client.hello, hrec.cfg, Client.hello]
    refine ⟨⟨?_, fun control hc => ?_, fun control hp => ?_⟩, hrec.cfg.trans hcfg⟩
    · show r.1.cs.hello = r.1.hello
      rw [hrec.cs, hh]
      exact hi.hello
    · show control = r.1.hello
      rw [hh]
      exact hi.sends control (hrec.tasks ▸ hc)
    · exact hi.handles control (hrec.phase ▸ hp)

/-- The next control packet of the host gets the number of those before it, modulo `2 ^ 16`. -/
theorem Runs.stamped (h : Runs cfg c ls w) : w.1.host.seq.val = lowSeq w.2.stamped := by
  refine h.induction (p := fun s g => s.host.seq.val = lowSeq g.stamped) rfl ?_
  intro ls s g l t hrun hp _ hev
  have same : t.host.seq = s.host.seq →
      t.host.seq.val = lowSeq (SessionLog.observe cfg g s l t).stamped := by
    intro he
    show _ = lowSeq ((if t.host.seq = s.host.seq then g.stamped else g.stamped + 1 : Nat) : Int)
    rw [if_pos he, he, hp]
  cases hev with
  | @host hl r hs =>
    obtain ⟨h', out⟩ := r
    cases Host.move_of_step hs with
    | sends ht hpacket =>
      have hval : s.host.seq.next.2.val = lowSeq (g.stamped + 1) := by
        rw [lowSeq_add_one, ← hp]
        rfl
      show s.host.seq.next.2.val =
        lowSeq ((if s.host.seq.next.2 = s.host.seq then g.stamped else g.stamped + 1 : Nat) : Int)
      rw [if_neg]
      · push_cast
        exact hval
      · intro hsame
        rw [hsame, hp] at hval
        have := lowSeq_inj (p := g.stamped) (q := g.stamped + 1) (by omega) (by omega) hval
        omega
    | executes ht hpacket hsilent => exact same hsilent.seq
    | feeds ht hphase ht' hhs hc => exact same hc.seq
    | ticks ht hphase => exact same rfl
    | takes ht hev => exact same rfl
    | polls ht hc ht' => exact same hc.seq
    | transmits hring hdst hc ht' => exact same hc.seq
    | idles _ hc ht' => exact same hc.seq
  | hostRecv _ _ hr => exact same (Host.receive_spec hr).seq
  | strangerRecv _ _ hr => exact same (Host.receive_spec hr).seq
  | client _ => exact same rfl
  | clientRecv _ _ _ => exact same rfl

/-- The host's tables are on their way to the slot table, and its ring holds audio. -/
theorem Runs.mirrored (h : Runs cfg c ls w) : w.1.host.Mirrored ∧ w.1.host.RingInv := by
  refine h.induction (p := fun s _ => s.host.Mirrored ∧ s.host.RingInv)
    ⟨Host.mirrored_new _, fun item hitem => by cases hitem⟩ ?_
  intro ls s g l t _ hi _ hev
  have received : ∀ {src bytes nowUs t3Us r}, s.host.receive src bytes nowUs t3Us = some r →
      r.1.Mirrored ∧ r.1.RingInv := by
    intro src bytes nowUs t3Us r hr
    have hrec := Host.receive_spec (o := r.2) hr
    exact ⟨hrec.mirrored hi.1, fun item hitem => hi.2 item (hrec.ring ▸ hitem)⟩
  cases hev with
  | host hs => exact ⟨(Host.move_of_step hs).mirrored hi.1, (Host.move_of_step hs).ring hi.2⟩
  | hostRecv _ _ hr => exact received hr
  | strangerRecv _ _ hr => exact received hr
  | client _ => exact hi
  | clientRecv _ _ _ => exact hi

/-! ## The network -/

/-- A datagram that a process sends. -/
theorem of_post {s : Session} {src : SocketAddr} {out : Option Outgoing} {e : Envelope}
    (h : s.post src out = s.net ++ [e]) :
    ∃ o, out = some o ∧ e = { src := src, dst := o.dst, bytes := o.bytes } := by
  have ho := List.append_cancel_left h
  cases out with
  | none => cases ho
  | some o => exact ⟨o, rfl, (List.singleton_inj.mp ho).symm⟩

theorem Event.net {s t : Session} {l : SessionLabel} (h : Event cfg s l t) :
    t.net = s.net ∨ ∃ e, t.net = s.net ++ [e] := by
  have posted : ∀ src (out : Option Outgoing),
      s.post src out = s.net ∨ ∃ e, s.post src out = s.net ++ [e] := by
    intro src out
    cases out with
    | none => exact .inl (List.append_nil _)
    | some o => exact .inr ⟨_, rfl⟩
  cases h <;> exact posted _ _

/-- What is noted about a datagram stays. -/
theorem note_of_lt {g : SessionLog} {s t : Session} {l : SessionLabel} {i : Nat}
    (hi : i < s.net.length) : (SessionLog.observe cfg g s l t).note i = g.note i := by
  unfold SessionLog.observe
  dsimp only
  cases t.net[s.net.length]? with
  | none => rfl
  | some e => exact Function.update_of_ne (Nat.ne_of_lt hi) _ _

theorem note_new {g : SessionLog} {s t : Session} {l : SessionLabel} {e : Envelope}
    (ht : t.net = s.net ++ [e]) : (SessionLog.observe cfg g s l t).note s.net.length = g.about s e := by
  have he : t.net[s.net.length]? = some e := by
    rw [ht, List.getElem?_append_right le_rfl, Nat.sub_self, List.getElem?_cons_zero]
  unfold SessionLog.observe
  dsimp only
  rw [he]
  exact Function.update_self _ _ _

theorem lt_of_net {s : Session} {i : Nat} {e : Envelope} (h : s.net[i]? = some e) :
    i < s.net.length := (List.getElem?_eq_some_iff.mp h).1

/-- Datagrams stay on the network. -/
theorem Event.net_mono {s t : Session} {l : SessionLabel} (h : Event cfg s l t) {i : Nat}
    {e : Envelope} (hi : s.net[i]? = some e) : t.net[i]? = some e := by
  rcases h.net with hn | ⟨e', hn⟩
  · rwa [hn]
  · rw [hn, List.getElem?_append_left (lt_of_net hi), hi]

/-- A datagram after a step was there before or is the one just sent. -/
theorem Event.net_cases {g : SessionLog} {s t : Session} {l : SessionLabel} (h : Event cfg s l t)
    {i : Nat} {e : Envelope} (hi : t.net[i]? = some e) :
    (s.net[i]? = some e ∧ (SessionLog.observe cfg g s l t).note i = g.note i) ∨
    (t.net = s.net ++ [e] ∧ i = s.net.length ∧ (SessionLog.observe cfg g s l t).note i = g.about s e) := by
  by_cases hlt : i < s.net.length
  · left
    refine ⟨?_, note_of_lt hlt⟩
    rcases h.net with hn | ⟨e', hn⟩
    · rwa [hn] at hi
    · rwa [hn, List.getElem?_append_left hlt] at hi
  · rcases h.net with hn | ⟨e', hn⟩
    · rw [hn] at hi
      exact absurd (lt_of_net hi) hlt
    · right
      have hlen := lt_of_net hi
      rw [hn, List.length_append, List.length_singleton] at hlen
      obtain rfl : i = s.net.length := by omega
      rw [hn, List.getElem?_append_right le_rfl, Nat.sub_self, List.getElem?_cons_zero] at hi
      obtain rfl := Option.some.inj hi
      exact ⟨hn, rfl, note_new hn⟩

/-- What is true of every datagram when it is sent is true of every datagram on the network. -/
theorem Runs.net (h : Runs cfg c ls w) {p : Envelope → Note → Prop}
    (hnew : ∀ ls s g l t e, Runs cfg c ls (s, g) → c (s, g) l → Event cfg s l t →
      t.net = s.net ++ [e] → p e (g.about s e)) :
    ∀ i e, w.1.net[i]? = some e → p e (w.2.note i) := by
  refine h.induction (p := fun s g => ∀ i e, s.net[i]? = some e → p e (g.note i)) ?_ ?_
  · intro i e hi
    cases hi
  · intro ls s g l t hrun hp hc hev i e hi
    rcases hev.net_cases (g := g) hi with ⟨hold, hnote⟩ | ⟨hn, _, hnote⟩
    · rw [hnote]
      exact hp i e hold
    · rw [hnote]
      exact hnew ls s g l t e hrun hc hev hn

/-- A datagram that is sent is a stamped packet of the host, a PONG of the host, audio of the host, or
the client's. -/
theorem Runs.sent {s t : Session} {g : SessionLog} {l : SessionLabel} {e : Envelope}
    (h : Runs cfg c ls (s, g)) (hev : Event cfg s l t) (hn : t.net = s.net ++ [e]) :
    (∃ nowUs task tasks control, l = .host (.control nowUs) ∧ s.host.tasks = task :: tasks ∧
      task.packet nowUs = some (e.dst, control) ∧ task.Vouched s.host.hs ∧ e.src = cfg.hostAddr ∧
      e.bytes = stampedDatagram s.host.seq.val control s.host.shared.sessionId hostSenderId) ∨
    (e.src = cfg.hostAddr ∧ (∃ header t1Us t2Us t3Us,
        Parses e.bytes header (.control (.pong t1Us t2Us t3Us))) ∧
      ((∃ (i : Nat) (e' : Envelope), s.net[i]? = some e' ∧ e'.dst = cfg.hostAddr ∧
          ¬ NoControl e'.bytes ∧ e.dst = e'.src) ∨
        ∃ bytes nowUs t3Us, l = .strangerRecv e.dst bytes nowUs t3Us)) ∨
    (e.src = cfg.hostAddr ∧ NoControl e.bytes ∧ ((g.about s e).held = true ∨ (g.about s e).behind = true)) ∨
    (e.src = cfg.clientAddr ∧ s.client.MaySend { dst := e.dst, bytes := e.bytes }) := by
  have hclient := h.client_inv.1
  cases hev with
  | @host hl r hs =>
    obtain ⟨h', out⟩ := r
    obtain ⟨o, rfl, rfl⟩ := of_post hn
    cases Host.move_of_step hs with
    | sends ht hp =>
      refine .inl ⟨_, _, _, _, rfl, ht, hp, h.host_inv.1.tasks _ ?_, rfl, rfl⟩
      exact ht ▸ List.mem_cons_self
    | @transmits item ring dst h' hring hdst hc ht' =>
      obtain ⟨hdest, haudio⟩ := h.mirrored.2 item (hring ▸ List.mem_cons_self)
      refine .inr (.inr (.inl ⟨rfl, haudio, ?_⟩))
      by_cases hb : s.host.txBehind = true
      · exact .inr hb
      · exact .inl (senderForAddr_isSome.mpr
          (h.mirrored.1.resolve (Bool.eq_false_iff.mpr hb) hdest hdst))
  | @hostRecv i nowUs t3Us e' r hi hd hr =>
    obtain ⟨o, ho, rfl⟩ := of_post hn
    obtain ⟨hdst, hctl, hpong⟩ := (Host.receive_spec (o := r.2) hr).reply o ho
    exact .inr (.inl ⟨rfl, hpong, .inl ⟨i, e', hi, hd, hctl, hdst⟩⟩)
  | @strangerRecv src bytes nowUs t3Us r _ _ hr =>
    obtain ⟨o, ho, rfl⟩ := of_post hn
    obtain ⟨hdst, _, hpong⟩ := (Host.receive_spec (o := r.2) hr).reply o ho
    exact .inr (.inl ⟨rfl, hpong, .inr ⟨bytes, nowUs, t3Us, by rw [← hdst]⟩⟩)
  | @client cl r hs =>
    obtain ⟨c', out⟩ := r
    obtain ⟨o, rfl, rfl⟩ := of_post hn
    exact .inr (.inr (.inr ⟨rfl, Client.step_maySend hclient hs⟩))
  | @clientRecv i nowUs t3Us e' r _ _ hr =>
    obtain ⟨o, ho, rfl⟩ := of_post hn
    refine .inr (.inr (.inr ⟨rfl, fun header control hp => .inr ?_⟩))
    obtain ⟨header', t1Us, t2Us, t3Us', hpong⟩ := (Client.receive_spec (o := r.2) hr).reply o ho
    rw [← Payload.control.inj (hpong.unique hp).2]
    simp [Control.packetType]

/-- What is known of a datagram of the host: it is the answer to a PING, audio for an address that has a
slot as far as the transmit thread knows, or a stamped control packet, which only a DENY is without a
slot for its destination. -/
def FromHost (cfg : SessionConfig) (e : Envelope) (n : Note) : Prop :=
  (∃ header t1Us t2Us t3Us, Parses e.bytes header (.control (.pong t1Us t2Us t3Us))) ∨
  (NoControl e.bytes ∧ (n.held = true ∨ n.behind = true)) ∨
  ∃ control, control.RosterFits ∧
    e.bytes = stampedDatagram (lowSeq n.stamp) control cfg.host.sessionId hostSenderId ∧
    ((∃ reason, control = .deny reason) ∨ n.held = true)

theorem Runs.fromHost (h : Runs cfg c ls w) :
    ∀ i e, w.1.net[i]? = some e → e.src = cfg.hostAddr → FromHost cfg e (w.2.note i) := by
  refine h.net (p := fun e n => e.src = cfg.hostAddr → FromHost cfg e n) ?_
  intro ls s g l t e hrun _ hev hn hsrc
  rcases hrun.sent hev hn with ⟨nowUs, task, _, control, _, _, hp, hv, _, hbytes⟩ |
    ⟨_, hpong, _⟩ | ⟨_, haudio⟩ | ⟨hsrc', _⟩
  · obtain ⟨hr, hheld⟩ := hv.packet hp
    refine .inr (.inr ⟨control, hr, ?_, ?_⟩)
    · rw [hbytes, hrun.stamped, hrun.host_inv.2.1]
      rfl
    · rcases hheld with hdeny | hheld
      · exact .inl hdeny
      · exact .inr (senderForAddr_isSome.mpr hheld)
  · exact .inl hpong
  · exact .inr (.inl haudio)
  · exact absurd (hsrc.symm.trans hsrc') cfg.distinct

/-- What a ROSTER or a WELCOME on the network looks like to the client. -/
theorem FromHost.parses {e : Envelope} {n : Note} {header : Header} {control : Control}
    (h : FromHost cfg e n) (hp : Parses e.bytes header (.control control))
    (hne : control.packetType ≠ .pong) :
    header.seq = lowSeq n.stamp ∧ header.sessionId = cfg.host.sessionId ∧
      ∃ sent, control = Control.wire sent ∧ ((∃ reason, sent = .deny reason) ∨ n.held = true) := by
  rcases h with ⟨_, _, _, _, hpong⟩ | ⟨haudio, _⟩ | ⟨sent, hr, hbytes, hheld⟩
  · rw [← Payload.control.inj (hpong.unique hp).2] at hne
    exact absurd rfl hne
  · exact absurd hp (haudio header control)
  · rw [hbytes] at hp
    obtain ⟨hh, hc⟩ := (parses_stampedDatagram _ _ _ hr).unique hp
    rw [← hh]
    exact ⟨rfl, rfl, sent, (Payload.control.inj hc).symm, hheld⟩

/-- A HELLO is the client's own. -/
def OwnHello (cfg : SessionConfig) (control : Control) : Prop :=
  control = (Control.hello protocolVersion cfg.client.roomCode cfg.client.name 0b111 0b011).wire ∨
    control.packetType ≠ .hello

theorem Runs.fromClient (h : Runs cfg c ls w) :
    ∀ (i : Nat) (e : Envelope), w.1.net[i]? = some e → e.src = cfg.clientAddr →
      ∀ header control, Parses e.bytes header (.control control) → OwnHello cfg control := by
  refine h.net (p := fun e _ => e.src = cfg.clientAddr → ∀ header control,
      Parses e.bytes header (.control control) → OwnHello cfg control) ?_
  intro ls s g l t e hrun _ hev hn hsrc
  rcases hrun.sent hev hn with ⟨_, _, _, _, _, _, _, _, hsrc', _⟩ | ⟨hsrc', _⟩ | ⟨hsrc', _⟩ | ⟨_, hmay⟩
  · exact absurd (hsrc'.symm.trans hsrc) cfg.distinct
  · exact absurd (hsrc'.symm.trans hsrc) cfg.distinct
  · exact absurd (hsrc'.symm.trans hsrc) cfg.distinct
  · have hcfg : s.client.cfg = cfg.client := hrun.client_inv.2
    intro header control hp
    have hm := hmay header control hp
    rwa [Client.hello, hcfg] at hm

/-- So is a HELLO that waits in the host's channel under the client's address. -/
theorem Runs.hostEvents (h : Runs cfg c ls w) :
    ∀ ev ∈ w.1.host.events, ev.src = cfg.clientAddr → OwnHello cfg ev.control := by
  refine h.induction (p := fun s _ => ∀ ev ∈ s.host.events, ev.src = cfg.clientAddr →
    OwnHello cfg ev.control) (fun ev hev => by cases hev) ?_
  intro ls s g l t hrun hp _ hev
  have received : ∀ {src bytes nowUs t3Us r}, s.host.receive src bytes nowUs t3Us = some r →
      (∀ header control, Parses bytes header (.control control) → src = cfg.clientAddr →
        OwnHello cfg control) →
      ∀ ev ∈ r.1.events, ev.src = cfg.clientAddr → OwnHello cfg ev.control := by
    intro src bytes nowUs t3Us r hr hown ev hmem hsrc
    rcases (Host.receive_spec (o := r.2) hr).event with he | ⟨header, control, rxUs, hparse, he⟩
    · exact hp ev (he ▸ hmem) hsrc
    · rw [he] at hmem
      rcases List.mem_append.mp hmem with hmem | hmem
      · exact hp ev hmem hsrc
      · obtain rfl := List.mem_singleton.mp hmem
        exact hown header control hparse hsrc
  cases hev with
  | @host hl r hs => exact fun ev hmem => hp ev ((Host.move_of_step hs).events ev hmem)
  | @hostRecv i nowUs t3Us e r hi _ hr =>
    exact received hr fun header control hparse hsrc => hrun.fromClient i e hi hsrc header control hparse
  | strangerRecv _ hc hr => exact received hr fun _ _ _ hsrc => absurd hsrc hc
  | client _ => exact hp
  | clientRecv _ _ _ => exact hp

/-- A host that has a slot for the client has the client's room code. -/
theorem Runs.roomCode (h : Runs cfg c ls w) : ∀ k, w.1.host.hs.addrAt k = some cfg.clientAddr →
    cfg.client.roomCode = cfg.host.roomCode := by
  refine h.induction (p := fun s _ => ∀ k, s.host.hs.addrAt k = some cfg.clientAddr →
    cfg.client.roomCode = cfg.host.roomCode) (fun k hk => by cases hk) ?_
  intro ls s g l t hrun hp _ hev k hk
  have hcode : s.host.hs.roomCode = cfg.host.roomCode := hrun.host_inv.2.2
  rcases hev.moves.addrAt_cases hk with hold | ⟨ev, hmem, hsrc, name, codecMask, frameMask, hadmits⟩
  · exact hp k hold
  · rcases hrun.hostEvents ev hmem hsrc.symm with hown | hne
    · rw [hadmits, hcode] at hown
      exact (Control.hello.inj hown).2.1.symm
    · rw [hadmits] at hne
      exact absurd rfl hne

end Runs

end Session

end OnlineJam
