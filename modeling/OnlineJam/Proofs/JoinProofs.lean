import OnlineJam.Proofs.SessionProofs

/-!
# Sessions: what the client has taken from the network

The datagrams behind the events in the client's channel, behind the packet its handshake machine is
about to see, and behind the session it is Joined to.
-/

namespace OnlineJam

open OnlineJam.Lib

namespace Session

/-- The `i`-th datagram went from the host to the client and carries this packet. -/
def Carries (cfg : SessionConfig) (s : Session) (i : Nat) (header : Header) (control : Control) :
    Prop :=
  ∃ e, s.net[i]? = some e ∧ e.src = cfg.hostAddr ∧ e.dst = cfg.clientAddr ∧
    Parses e.bytes header (.control control)

theorem Carries.mono {cfg : SessionConfig} {s t : Session} {l : SessionLabel} {i : Nat}
    {header : Header} {control : Control} (h : Carries cfg s i header control)
    (hev : Event cfg s l t) : Carries cfg t i header control := by
  obtain ⟨e, hi, hsrc, hdst, hp⟩ := h
  exact ⟨e, hev.net_mono hi, hsrc, hdst, hp⟩

theorem Carries.unique {cfg : SessionConfig} {s : Session} {i : Nat} {header header' : Header}
    {control control' : Control} (h : Carries cfg s i header control)
    (h' : Carries cfg s i header' control') : header = header' ∧ control = control' := by
  obtain ⟨e, hi, _, _, hp⟩ := h
  obtain ⟨e', hi', _, _, hp'⟩ := h'
  obtain rfl := Option.some.inj (hi.symm.trans hi')
  exact ⟨(hp.unique hp').1, Payload.control.inj (hp.unique hp').2⟩

section Runs

variable {cfg : SessionConfig} {c : Watched → SessionLabel → Prop} {ls : List SessionLabel}
  {w : Watched}

/-- Every event in the client's channel is a datagram of the host, in the order of arrival. -/
theorem Runs.queue (h : Runs cfg c ls w) :
    List.Forall₂ (fun ev i => Carries cfg w.1 i ev.header ev.control) w.1.client.events
      w.2.queue := by
  refine h.induction (p := fun s g => List.Forall₂ (fun ev i =>
    Carries cfg s i ev.header ev.control) s.client.events g.queue) .nil ?_
  intro ls s g l t hrun hp _ hev
  have later : List.Forall₂ (fun ev i => Carries cfg t i ev.header ev.control) s.client.events
      g.queue := hp.imp fun _ _ hc => hc.mono hev
  cases hev with
  | host _ => exact later
  | hostRecv _ _ _ => exact later
  | strangerRecv _ _ _ => exact later
  | @client cl r hs =>
    by_cases hl : ∃ nowMs, cl = .wake nowMs
    · obtain ⟨nowMs, rfl⟩ := hl
      rcases Client.step_cases (o := r.2) hs with ⟨_, _, _, h, _⟩ | ⟨_, h, _⟩ |
        ⟨_, _, htasks, he, _⟩ | ⟨_, h, _⟩
      · cases h
      · cases h
      · show List.Forall₂ _ r.1.events g.queue.tail
        rw [he]
        rcases Client.wake_cases _ htasks with ⟨hnil, hsame, _⟩ | ⟨ev, events, hcons, hd⟩
        · rw [hnil] at later
          rw [hsame.events, hnil, List.forall₂_nil_left_iff.mp later]
          exact .nil
        · rw [hcons] at later
          obtain ⟨i, queue, _, hq, hg⟩ := List.forall₂_cons_left_iff.mp later
          rw [hd.events, hg]
          exact hq
      · exact absurd rfl (h nowMs)
    · have hev := Client.step_events (o := r.2) hs fun nowMs h => hl ⟨nowMs, h⟩
      cases cl with
      | wake nowMs => exact absurd ⟨nowMs, rfl⟩ hl
      | _ =>
        show List.Forall₂ _ r.1.events g.queue
        rw [hev]
        exact later
  | @clientRecv i nowUs t3Us e r hi hd hr =>
    show List.Forall₂ _ r.1.events
      (if r.1.events.length = s.client.events.length then g.queue else g.queue ++ [i])
    rcases (Client.receive_spec (o := r.2) hr).event with ⟨he, _⟩ |
      ⟨header, control, rxUs, hsrc, hparse, he⟩
    · rw [he, if_pos rfl]
      exact later
    · rw [he, if_neg (by rw [List.length_append, List.length_singleton]; omega)]
      refine List.rel_append later (.cons ⟨e, ?_, ?_, hd, hparse⟩ .nil)
      · exact Event.net_mono (.clientRecv hi hd hr) hi
      · rw [hsrc, hrun.client_inv.2]
        rfl

/-- The packet kept for the handshake machine is the datagram in hand. -/
theorem Runs.inHand (h : Runs cfg c ls w) :
    ∀ control, w.1.client.phase = .handshake (some control) →
      ∃ i header, w.2.inHand = some i ∧ Carries cfg w.1 i header control := by
  refine h.induction (p := fun s g => ∀ control, s.client.phase = .handshake (some control) →
    ∃ i header, g.inHand = some i ∧ Carries cfg s i header control) (fun control h => by cases h) ?_
  intro ls s g l t hrun hp _ hev
  have later : ∀ control, s.client.phase = .handshake (some control) →
      ∃ i header, g.inHand = some i ∧ Carries cfg t i header control := by
    intro control hc
    obtain ⟨i, header, hi, hcar⟩ := hp control hc
    exact ⟨i, header, hi, hcar.mono hev⟩
  have hqueue := hrun.queue
  cases hev with
  | host _ => exact later
  | hostRecv _ _ _ => exact later
  | strangerRecv _ _ _ => exact later
  | clientRecv hi hd hr =>
    intro control hc
    exact later control ((Client.receive_spec hr).phase ▸ hc)
  | @client cl r hs =>
    intro control (hc : r.1.phase = .handshake (some control))
    rcases Client.step_cases (o := r.2) hs with ⟨nowUs, task, tasks, rfl, htasks, hp⟩ |
      ⟨nowUs, rfl, htasks, ha⟩ | ⟨nowMs, rfl, htasks, he, _⟩ | ⟨hl1, hl2, _, _, hphase, _⟩
    · have hphase := (Client.perform_keeps { s.client with tasks := tasks } nowUs task).1
      rw [hp] at hphase
      exact later control (hphase ▸ hc)
    · rcases Client.advance_cases htasks ha with ⟨_, _, he, _⟩ | ⟨_, _, he, _⟩ | ⟨_, _, hne⟩
      · rw [he] at hc
        cases hc
      · rw [he] at hc
        cases hc
      · exact absurd hc (hne _)
    · have hc : (s.client.wake nowMs).phase = .handshake (some control) := he ▸ hc
      rcases Client.wake_cases nowMs htasks with ⟨_, _, _, hne⟩ | ⟨ev, events, hcons, hd⟩
      · exact absurd hc (hne _)
      · obtain ⟨rfl, _⟩ := hd.phase control hc
        rw [hcons] at hqueue
        obtain ⟨i, queue, hcar, _, hg⟩ := List.forall₂_cons_left_iff.mp hqueue
        refine ⟨i, ev.header, ?_, hcar.mono (.client hs)⟩
        show g.queue.head? = some i
        rw [hg]
        rfl
    · cases cl with
      | control nowUs => exact absurd rfl (hl1 nowUs)
      | wake nowMs => exact absurd rfl (hl2 nowMs)
      | _ => exact later control (hphase ▸ hc)

/-- The client's handshake machine is Joined by the WELCOME it accepted last. -/
theorem Runs.accepted (h : Runs cfg c ls w) :
    ∀ id sessionId params, w.1.client.cs.phase = .joined id sessionId params →
      ∃ i header roster, w.2.accepted = some i ∧ Carries cfg w.1 i header
        (.welcome id sessionId params.sampleRate params.frameSamples params.codec roster) := by
  refine h.induction (p := fun s g => ∀ id sessionId params,
    s.client.cs.phase = .joined id sessionId params →
      ∃ i header roster, g.accepted = some i ∧ Carries cfg s i header
        (.welcome id sessionId params.sampleRate params.frameSamples params.codec roster))
    (fun _ _ _ h => by cases h) ?_
  intro ls s g l t hrun hp _ hev id sessionId params hj
  -- Nothing new if the machine was Joined before.
  have old : s.client.cs.phase = .joined id sessionId params → ∃ i header roster,
      (SessionLog.observe cfg g s l t).accepted = some i ∧ Carries cfg t i header
        (.welcome id sessionId params.sampleRate params.frameSamples params.codec roster) := by
    intro hs
    obtain ⟨i, header, roster, hi, hcar⟩ := hp id sessionId params hs
    refine ⟨i, header, roster, ?_, hcar.mono hev⟩
    show (if ¬ s.client.cs.isJoined ∧ t.client.cs.isJoined then g.inHand else g.accepted) = some i
    rw [if_neg]
    · exact hi
    · rintro ⟨hn, _⟩
      rw [ClientHandshake.isJoined, hs] at hn
      exact hn rfl
  have hinv := hrun.client_inv.1
  have hhand := hrun.inHand
  have hev' := hev
  cases hev with
  | host _ => exact old hj
  | hostRecv _ _ _ => exact old hj
  | strangerRecv _ _ _ => exact old hj
  | @clientRecv i nowUs t3Us e r hi hd hr => exact old ((Client.receive_spec (o := r.2) hr).cs ▸ hj)
  | @client cl r hs =>
    have hj : r.1.cs.phase = .joined id sessionId params := hj
    rcases Client.step_cases (o := r.2) hs with ⟨nowUs, task, tasks, rfl, htasks, hp⟩ |
      ⟨nowUs, rfl, htasks, ha⟩ | ⟨nowMs, rfl, htasks, he, _⟩ | ⟨_, _, hsame, _⟩
    · rcases Client.perform_cs { s.client with tasks := tasks } nowUs task with hcs | hcs
      · rw [hp] at hcs
        exact old (hcs ▸ hj)
      · rw [hp] at hcs
        rw [hcs] at hj
        cases hj
    · rcases Client.advance_cases htasks ha with ⟨control, hphase, he, _⟩ | ⟨_, _, he, _⟩ | ⟨hsame, _⟩
      · rcases Client.runHandshake_cases hinv hphase with
          ⟨id', sessionId', sampleRate, frameSamples, codec, roster, rfl, hnot, hjoined, _⟩ | ⟨hold, _⟩
        · rw [he, hjoined] at hj
          obtain ⟨rfl, rfl, rfl⟩ := ClientPhase.joined.inj hj
          obtain ⟨i, header, hi, hcar⟩ := hhand _ hphase
          refine ⟨i, header, roster, ?_, hcar.mono hev'⟩
          show (if ¬ s.client.cs.isJoined ∧ r.1.cs.isJoined then g.inHand else g.accepted) = some i
          rw [if_pos]
          · exact hi
          · rw [hnot, he, ClientHandshake.isJoined, hjoined]
            exact ⟨Bool.false_ne_true, rfl⟩
        · exact old (hold _ _ _ (he ▸ hj))
      · rw [he] at hj
        cases hj
      · exact old (hsame.cs ▸ hj)
    · rcases Client.wake_cases nowMs htasks with ⟨_, hsame, _⟩ | ⟨_, _, _, hd⟩
      · exact old (by rw [← hsame.cs, ← he]; exact hj)
      · have hcs := hd.cs
        rw [← he] at hcs
        exact old (hcs ▸ hj)
    · exact old (hsame.cs ▸ hj)

end Runs

end Session

end OnlineJam
