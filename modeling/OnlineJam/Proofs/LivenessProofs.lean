import OnlineJam.Core.Scenario
import OnlineJam.Proofs.JoinProofs

/-!
# Liveness evidence

Which datagrams keep a joined client from timing out, in a session of one host and one client with
nobody else on the network.
-/

namespace OnlineJam

open OnlineJam.Lib
open HostHandshake

namespace Session

/-- A run with nobody else on the network. -/
abbrev ClosedRun (cfg : SessionConfig) : List SessionLabel → Watched → Prop :=
  Runs cfg fun _ l => l.closed = true

/-- Everything the host deals with is the client's, and it denies the client a slot only because of a
wrong room code. -/
structure Alone (cfg : SessionConfig) (s : Session) : Prop where
  net : ∀ (i : Nat) (e : Envelope), s.net[i]? = some e → e.dst = cfg.hostAddr →
    e.src = cfg.clientAddr ∨ NoControl e.bytes
  events : ∀ ev ∈ s.host.events, ev.src = cfg.clientAddr
  slots : ∀ k a, s.host.hs.addrAt k = some a → a = cfg.clientAddr
  denies : ∀ dst reason, .act (.send dst (.deny reason)) ∈ s.host.tasks →
    dst = cfg.clientAddr ∧ cfg.client.roomCode ≠ cfg.host.roomCode

section Runs

variable {cfg : SessionConfig} {ls : List SessionLabel} {w : Watched}

/-- Where a datagram that is sent goes: a control packet of the host goes to the client. -/
theorem Alone.sent {c : Watched → SessionLabel → Prop} {s t : Session} {g : SessionLog}
    {l : SessionLabel} {e : Envelope} (ha : Alone cfg s) (hclosed : l.closed = true)
    (h : Runs cfg c ls (s, g)) (hev : Event cfg s l t) (hn : t.net = s.net ++ [e]) :
    e.src = cfg.clientAddr ∨ e.dst = cfg.clientAddr ∨ NoControl e.bytes := by
  rcases h.sent hev hn with ⟨_, task, tasks, control, _, htasks, hp, hv, _⟩ |
    ⟨_, _, ⟨i, e', hi, hd, hctl, hdst⟩ | ⟨bytes, nowUs, t3Us, hl⟩⟩ | ⟨_, haudio, _⟩ | ⟨hsrc, _⟩
  · right; left
    rcases (hv.packet hp).2 with ⟨reason, rfl⟩ | ⟨k, hk⟩
    · rw [HostTask.of_packet_deny hp] at htasks
      exact (ha.denies e.dst reason (htasks ▸ List.mem_cons_self)).1
    · exact ha.slots k _ hk
  · exact .inr (.inl (hdst.trans ((ha.net i e' hi hd).resolve_right hctl)))
  · rw [hl] at hclosed
    cases hclosed
  · exact .inr (.inr haudio)
  · exact .inl hsrc

theorem ClosedRun.alone (h : ClosedRun cfg ls w) : Alone cfg w.1 := by
  refine Runs.induction (p := fun s _ => Alone cfg s) h ?_ ?_
  · exact ⟨fun i e hi => (by cases hi), fun ev hev => (by cases hev), fun k a hk => (by cases hk),
      fun dst reason ht => (by cases ht)⟩
  intro ls s g l t hrun ha hclosed hev
  have hcode : s.host.hs.roomCode = cfg.host.roomCode := hrun.host_inv.2.2
  refine ⟨?_, ?_, ?_, ?_⟩
  · intro i e hi hdst
    rcases hev.net_cases (g := g) hi with ⟨hold, _⟩ | ⟨hn, _⟩
    · exact ha.net i e hold hdst
    · rcases ha.sent hclosed hrun hev hn with hsrc | hdst' | haudio
      · exact .inl hsrc
      · exact absurd (hdst.symm.trans hdst') cfg.distinct
      · exact .inr haudio
  · cases hev with
    | host hs => exact fun ev hmem => ha.events ev ((Host.move_of_step hs).events ev hmem)
    | @hostRecv i nowUs t3Us e r hi hd hr =>
      intro ev (hmem : ev ∈ r.1.events)
      rcases (Host.receive_spec (o := r.2) hr).event with he | ⟨header, control, rxUs, hp, he⟩
      · exact ha.events ev (he ▸ hmem)
      · rw [he] at hmem
        rcases List.mem_append.mp hmem with hmem | hmem
        · exact ha.events ev hmem
        · rw [List.mem_singleton.mp hmem]
          exact (ha.net i e hi hd).resolve_right fun hno => hno header control hp
    | strangerRecv _ _ _ => cases hclosed
    | client _ => exact ha.events
    | clientRecv _ _ _ => exact ha.events
  · intro k a hk
    rcases hev.moves.addrAt_cases hk with hold | ⟨ev, hmem, rfl, _⟩
    · exact ha.slots k a hold
    · exact ha.events ev hmem
  · cases hev with
    | @host hl r hs =>
      intro dst reason hd
      rcases (Host.move_of_step hs).deny hd with hold | ⟨ev, hmem, rfl, hhello, hwhy⟩
      · exact ha.denies dst reason hold
      have hsrc := ha.events ev hmem
      refine ⟨hsrc, fun heq => ?_⟩
      rcases hwhy with hnot | hfull
      · -- The client's HELLO would be admitted.
        rcases hrun.hostEvents ev hmem hsrc with hown | hne
        · rw [heq, ← hcode] at hown
          exact hnot ⟨fitName cfg.client.name, 0b111, 0b011, hown⟩
        · exact hne hhello
      · -- The room is not full of others.
        obtain ⟨a, hk, hne⟩ := hfull 0
        exact hne ((ha.slots 0 a hk).trans hsrc.symm)
    | hostRecv _ _ hr =>
      intro dst reason hd
      exact ha.denies dst reason ((Host.receive_spec hr).tasks ▸ hd)
    | strangerRecv _ _ _ => cases hclosed
    | client _ => exact ha.denies
    | clientRecv _ _ _ => exact ha.denies

/-- What is sent to the client while it has a slot comes from a host with its room code. -/
theorem Runs.roomCode_of_held {c : Watched → SessionLabel → Prop} (h : Runs cfg c ls w) :
    ∀ i e, w.1.net[i]? = some e → e.dst = cfg.clientAddr → (w.2.note i).held = true →
      cfg.client.roomCode = cfg.host.roomCode := by
  refine h.net (p := fun e n => e.dst = cfg.clientAddr → n.held = true →
    cfg.client.roomCode = cfg.host.roomCode) ?_
  intro ls s g l t e hrun _ _ _ hdst hheld
  obtain ⟨k, hk⟩ := senderForAddr_isSome.mp hheld
  exact hrun.roomCode k (hdst ▸ hk)

/-- A DENY comes from a host with another room code. -/
theorem ClosedRun.deny (h : ClosedRun cfg ls w) :
    ∀ (i : Nat) (e : Envelope), w.1.net[i]? = some e → e.src = cfg.hostAddr →
      ∀ header reason, Parses e.bytes header (.control (.deny reason)) →
        cfg.client.roomCode ≠ cfg.host.roomCode := by
  refine Runs.net h (p := fun e _ => e.src = cfg.hostAddr → ∀ header reason,
    Parses e.bytes header (.control (.deny reason)) → cfg.client.roomCode ≠ cfg.host.roomCode) ?_
  intro ls s g l t e hrun _ hev hn hsrc header reason hparse
  rcases hrun.sent hev hn with ⟨_, task, tasks, control, _, htasks, hp, hv, _, hbytes⟩ |
    ⟨_, ⟨_, _, _, _, hpong⟩, _⟩ | ⟨_, haudio, _⟩ | ⟨hsrc', _⟩
  · rw [hbytes] at hparse
    have hc := Payload.control.inj ((parses_stampedDatagram _ _ _ (hv.packet hp).1).unique hparse).2
    cases control with
    | deny reason' =>
      rw [HostTask.of_packet_deny hp] at htasks
      exact (ClosedRun.alone hrun |>.denies e.dst reason' (htasks ▸ List.mem_cons_self)).2
    | _ => cases hc
  · cases (hpong.unique hparse).2
  · exact absurd hparse (haudio _ _)
  · exact absurd (hsrc.symm.trans hsrc') cfg.distinct

/-! ## What refreshed -/

section Open

variable {c : Watched → SessionLabel → Prop}

/-- The datagram that refreshed `lastRxUs` last came from the host. -/
theorem Runs.refreshedBy (h : Runs cfg c ls w) : ∀ i, w.2.refreshedBy = some i →
    ∃ e, w.1.net[i]? = some e ∧ e.src = cfg.hostAddr ∧ e.dst = cfg.clientAddr := by
  refine h.induction (p := fun s g => ∀ i, g.refreshedBy = some i →
    ∃ e, s.net[i]? = some e ∧ e.src = cfg.hostAddr ∧ e.dst = cfg.clientAddr) (fun i hi => by cases hi) ?_
  intro ls s g l t hrun hp _ hev i hi
  have old : g.refreshedBy = some i →
      ∃ e, t.net[i]? = some e ∧ e.src = cfg.hostAddr ∧ e.dst = cfg.clientAddr := by
    intro hg
    obtain ⟨e, hn, hsrc, hdst⟩ := hp i hg
    exact ⟨e, hev.net_mono hn, hsrc, hdst⟩
  have hev' := hev
  cases hev with
  | host _ => exact old hi
  | hostRecv _ _ _ => exact old hi
  | strangerRecv _ _ _ => exact old hi
  | client _ => exact old hi
  | @clientRecv j nowUs t3Us e r hn hd hr =>
    have hi : (if s.net[j]?.any s.client.refreshes then some j else g.refreshedBy) = some i := hi
    split at hi
    · rename_i hrefresh
      obtain rfl := Option.some.inj hi
      rw [hn, Option.any_some] at hrefresh
      refine ⟨e, hev'.net_mono hn, ?_, hd⟩
      rw [Client.src_of_refreshes hrefresh, hrun.client_inv.2]
      rfl
    · exact old hi

/-- What waits for the client's control loop has refreshed `lastRxUs`. -/
theorem Runs.refreshed (h : Runs cfg c ls w) :
    (w.2.queue ≠ [] ∨ w.2.inHand ≠ none) → w.2.refreshedBy ≠ none := by
  refine h.induction (p := fun _ g => (g.queue ≠ [] ∨ g.inHand ≠ none) → g.refreshedBy ≠ none)
    (fun hw => (hw.elim (fun h => h rfl) fun h => h rfl).elim) ?_
  intro ls s g l t hrun hp _ hev
  cases hev with
  | host _ => exact hp
  | hostRecv _ _ _ => exact hp
  | strangerRecv _ _ _ => exact hp
  | @client cl r hs =>
    cases cl with
    | wake nowMs =>
      have hp : (g.queue ≠ [] ∨ g.inHand ≠ none) → g.refreshedBy ≠ none := hp
      show (g.queue.tail ≠ [] ∨ g.queue.head? ≠ none) → g.refreshedBy ≠ none
      intro hw
      refine hp (.inl fun hnil => ?_)
      rw [hnil] at hw
      exact hw.elim (fun h => h rfl) fun h => h rfl
    | _ => exact hp
  | @clientRecv i nowUs t3Us e r hn hd hr =>
    have hp : (g.queue ≠ [] ∨ g.inHand ≠ none) → g.refreshedBy ≠ none := hp
    show ((if r.1.events.length = s.client.events.length then g.queue else g.queue ++ [i]) ≠ [] ∨
      g.inHand ≠ none) → (if s.net[i]?.any s.client.refreshes then some i else g.refreshedBy) ≠ none
    intro hw
    split
    · exact fun hnone => by cases hnone
    · rename_i hno
      rw [hn, Option.any_some] at hno
      have hevents : r.1.events = s.client.events := by
        by_contra hne
        exact hno (Client.refreshes_of_event (o := r.2) hr hne)
      rw [hevents, if_pos rfl] at hw
      exact hp hw

/-- A WELCOME for the client comes from a host with its room code. -/
theorem Runs.roomCode_of_welcome (h : Runs cfg c ls w) {i : Nat} {header : Header}
    {id sessionId : UInt16} {sampleRate : UInt32} {frameSamples : UInt16} {codec : Codec}
    {roster : List PlayerInfo} (hc : Carries cfg w.1 i header
      (.welcome id sessionId sampleRate frameSamples codec roster)) :
    cfg.client.roomCode = cfg.host.roomCode := by
  obtain ⟨e, hi, hsrc, hdst, hparse⟩ := hc
  obtain ⟨_, _, sent, hsent, hheld⟩ := (h.fromHost i e hi hsrc).parses hparse
    (by simp [Control.packetType])
  rcases hheld with ⟨reason, rfl⟩ | hheld
  · cases hsent
  · exact h.roomCode_of_held i e hi hdst hheld

/-- A joined client has heard of the host, which has its room code. -/
theorem Runs.joined (h : Runs cfg c ls w) :
    (w.1.client.shared.joined = true ∨
        ∃ id sessionId params, .act (.startAudio id sessionId params) ∈ w.1.client.tasks) →
      w.2.refreshedBy ≠ none ∧ cfg.client.roomCode = cfg.host.roomCode := by
  refine h.induction (p := fun s g => (s.client.shared.joined = true ∨
      ∃ id sessionId params, .act (.startAudio id sessionId params) ∈ s.client.tasks) →
    g.refreshedBy ≠ none ∧ cfg.client.roomCode = cfg.host.roomCode) ?_ ?_
  · rintro (hj | ⟨_, _, _, ht⟩)
    · cases hj
    · cases List.mem_singleton.mp ht
  intro ls s g l t hrun hp _ hev
  have hinv := hrun.client_inv.1
  have hhand := hrun.inHand
  have hrefreshed := hrun.refreshed
  cases hev with
  | host _ => exact hp
  | hostRecv _ _ _ => exact hp
  | strangerRecv _ _ _ => exact hp
  | @clientRecv i nowUs t3Us e r hn hd hr =>
    have hrec := Client.receive_spec (o := r.2) hr
    intro (hj : r.1.shared.joined = true ∨ ∃ id sessionId params, _ ∈ r.1.tasks)
    rw [hrec.joined, hrec.tasks] at hj
    obtain ⟨hg, hcode⟩ := hp hj
    refine ⟨?_, hcode⟩
    show (if s.net[i]?.any s.client.refreshes then some i else g.refreshedBy) ≠ none
    split
    · exact fun hnone => by cases hnone
    · exact hg
  | @client cl r hs =>
    show _ → g.refreshedBy ≠ none ∧ _
    intro (hj : r.1.shared.joined = true ∨ ∃ id sessionId params, _ ∈ r.1.tasks)
    rcases Client.step_cases (o := r.2) hs with ⟨nowUs, task, tasks, rfl, htasks, hperform⟩ |
      ⟨nowUs, rfl, htasks, ha⟩ | ⟨nowMs, rfl, htasks, he, _⟩ | ⟨_, _, hsame, htasks, _⟩
    · have rest : ∀ t ∈ tasks, t ∈ s.client.tasks := fun t ht => by
        rw [htasks]
        exact List.mem_cons_of_mem _ ht
      -- A task that neither starts audio nor restarts the handshake.
      have same : ∀ c' : Client, c'.shared.joined = s.client.shared.joined → c'.tasks = tasks →
          (c'.shared.joined = true ∨ ∃ id sessionId params,
            .act (.startAudio id sessionId params) ∈ c'.tasks) →
          g.refreshedBy ≠ none ∧ cfg.client.roomCode = cfg.host.roomCode := by
        rintro c' hjoined ht (hj | ⟨id, sessionId, params, hmem⟩)
        · exact hp (.inl (hjoined ▸ hj))
        · exact hp (.inr ⟨id, sessionId, params, rest _ (ht ▸ hmem)⟩)
      have hcases := Client.perform_cases { s.client with tasks := tasks } nowUs task
      rw [hperform] at hcases
      rcases hcases with ⟨hsame, ht, _⟩ | ⟨id, sessionId, params, rfl, _⟩ | ⟨roster, _, he⟩ |
        ⟨failure, _, _, ⟨hsame, ht, _⟩ | he⟩
      · exact same r.1 hsame.joined ht hj
      · exact hp (.inr ⟨id, sessionId, params, by rw [htasks]; exact List.mem_cons_self⟩)
      · rw [(Prod.mk.inj he).1] at hj
        refine same _ ?_ ?_ hj <;> rfl
      · exact same r.1 hsame.joined ht hj
      · rw [(Prod.mk.inj he).1] at hj
        rcases hj with hj | ⟨id, sessionId, params, hmem⟩
        · exact hp (.inl hj)
        · rcases Client.mem_restart.mp hmem with hmem | hmem
          · cases hmem
          · exact hp (.inr ⟨id, sessionId, params, rest _ hmem⟩)
    · rcases Client.advance_cases htasks ha with ⟨control, hphase, he, _⟩ | ⟨_, _, he, _⟩ |
        ⟨hsame, ht, _⟩
      · rw [he] at hj
        rcases hj with hj | ⟨id, sessionId, params, hmem⟩
        · exact hp (.inl hj)
        · rcases Client.runHandshake_cases hinv hphase with
            ⟨_, _, _, _, _, _, rfl, _, _, _⟩ | ⟨_, hnot⟩
          · obtain ⟨i, header, hi, hcar⟩ := hhand _ hphase
            refine ⟨hrefreshed (.inr ?_), hrun.roomCode_of_welcome hcar⟩
            rw [hi]
            exact fun hnone => by cases hnone
          · exact absurd (.inl ⟨id, sessionId, params, hmem⟩) hnot
      · rw [he] at hj
        rcases hj with hj | ⟨id, sessionId, params, hmem⟩
        · cases hj
        · rcases Client.mem_restart.mp hmem with hmem | hmem
          · cases hmem
          · exact absurd (htasks ▸ hmem : _ ∈ []) List.not_mem_nil
      · rcases hj with hj | ⟨id, sessionId, params, hmem⟩
        · exact hp (.inl (hsame.joined ▸ hj))
        · cases ht _ hmem
    · rw [he] at hj
      rcases Client.wake_cases nowMs htasks with ⟨_, hsame, ht, _⟩ | ⟨_, _, _, hd⟩
      · rcases hj with hj | ⟨id, sessionId, params, hmem⟩
        · exact hp (.inl (hsame.joined ▸ hj))
        · cases ht _ hmem
      · rcases hj with hj | ⟨id, sessionId, params, hmem⟩
        · exact hp (.inl (hd.joined hj))
        · exact absurd hmem (hd.tasks _)
    · rw [hsame.joined, htasks] at hj
      exact hp hj

end Open

end Runs

/-- Liveness evidence: with nobody else on the network, what last refreshed a joined client was sent
by the host while it held a slot for the client, or it is the answer to a PING, or it is audio that
was sent before the transmit thread had taken in every change of the slots. -/
theorem liveness_evidence (cfg : SessionConfig) (ls : List SessionLabel) (w : Watched)
    (h : ClosedRun cfg ls w) (hj : w.1.client.shared.joined = true) :
    ∃ i e, w.2.refreshedBy = some i ∧ w.1.net[i]? = some e ∧ e.src = cfg.hostAddr ∧
      e.dst = cfg.clientAddr ∧
      ((w.2.note i).held = true ∨
        (∃ header t1Us t2Us t3Us, Parses e.bytes header (.control (.pong t1Us t2Us t3Us))) ∨
        NoControl e.bytes ∧ (w.2.note i).behind = true) := by
  obtain ⟨hsome, hcode⟩ := Runs.joined h (.inl hj)
  obtain ⟨i, hi⟩ := Option.ne_none_iff_exists'.mp hsome
  obtain ⟨e, hn, hsrc, hdst⟩ := Runs.refreshedBy h i hi
  refine ⟨i, e, hi, hn, hsrc, hdst, ?_⟩
  rcases Runs.fromHost h i e hn hsrc with hpong | ⟨haudio, hheld | hbehind⟩ |
    ⟨control, hr, hbytes, ⟨reason, rfl⟩ | hheld⟩
  · exact .inr (.inl hpong)
  · exact .inl hheld
  · exact .inr (.inr ⟨haudio, hbehind⟩)
  · -- A host that denied the client anything would not have welcomed it.
    have hparse := parses_stampedDatagram (lowSeq (w.2.note i).stamp) cfg.host.sessionId hostSenderId hr
    rw [← hbytes] at hparse
    exact absurd hcode (ClosedRun.deny h i e hn hsrc _ _ hparse)
  · exact .inl hheld

/-- The ordinary join: the WELCOME is the evidence. -/
theorem liveness_evidence_join : ∃ w, ClosedRun Scenario.cfg (Scenario.hello ++ Scenario.join 20) w ∧
    ∃ i e, w.2.refreshedBy = some i ∧ w.1.net[i]? = some e ∧ e.src = Scenario.hostAddr ∧
      e.dst = Scenario.clientAddr ∧
      ((w.2.note i).held = true ∨
        (∃ header t1Us t2Us t3Us, Parses e.bytes header (.control (.pong t1Us t2Us t3Us))) ∨
        NoControl e.bytes ∧ (w.2.note i).behind = true) := by
  obtain ⟨w, hr, hp⟩ := Runs.of_test Scenario.cfg (Scenario.hello ++ Scenario.join 20)
    (fun _ l => l.closed) (fun w => w.1.client.shared.joined) (c := fun _ l => l.closed = true)
    (fun _ _ hl => hl) (by decide +kernel)
  exact ⟨w, hr, liveness_evidence Scenario.cfg _ w hr hp⟩

/-- The client joins late and the host, which never hears of it, times it out. The client's PING is
answered all the same. -/
def pongOnly : List SessionLabel :=
  Scenario.hello ++ Scenario.join 2000 ++ Scenario.client 2 2000000 ++
    [.host (.wake 6000)] ++ Scenario.host 9 6000000 ++ Scenario.rx 4 ++
    [.hostRecv 3 6001000 6001000, .clientRecv 4 6002000 6002000]

/-- The answer to a PING keeps a client joined that the host has no slot for. -/
theorem liveness_without_slot : ¬ ∀ (cfg : SessionConfig) (ls : List SessionLabel) (w : Watched),
    ClosedRun cfg ls w → w.1.client.shared.joined = true →
      ∃ i, w.2.refreshedBy = some i ∧ (w.2.note i).held = true := by
  intro hall
  obtain ⟨w, hr, hp⟩ := Runs.of_test Scenario.cfg pongOnly (fun _ l => l.closed)
    (fun w => w.1.client.shared.joined && w.2.refreshedBy = some 4 && ! (w.2.note 4).held)
    (c := fun _ l => l.closed = true) (fun _ _ hl => hl) (by decide +kernel)
  simp only [Bool.and_eq_true, decide_eq_true_eq, Bool.not_eq_true'] at hp
  obtain ⟨⟨hj, hi⟩, hheld⟩ := hp
  obtain ⟨i, hi', hheld'⟩ := hall Scenario.cfg pongOnly w hr hj
  obtain rfl := Option.some.inj (hi.symm.trans hi')
  exact absurd (hheld.symm.trans hheld') (by decide)

end Session

end OnlineJam
