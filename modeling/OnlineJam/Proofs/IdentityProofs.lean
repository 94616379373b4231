import OnlineJam.Core.Scenario
import OnlineJam.Proofs.JoinProofs

/-!
# Identity agreement

The id a client is Joined with is the id of the slot the host holds for it, as long as the host has not
taken that slot away since it sent the WELCOME the client accepted.
-/

namespace OnlineJam

open OnlineJam.Lib
open HostHandshake

namespace Session

section Runs

variable {cfg : SessionConfig} {c : Watched → SessionLabel → Prop} {ls : List SessionLabel}
  {w : Watched}

/-- A WELCOME to the client names the slot the client has, if that was not taken away since. -/
theorem Runs.welcomes (h : Runs cfg c ls w) :
    ∀ i header id sessionId sampleRate frameSamples codec roster, Carries cfg w.1 i header
        (.welcome id sessionId sampleRate frameSamples codec roster) →
      (w.2.note i).removals ≤ w.2.removals ∧ ((w.2.note i).removals = w.2.removals →
        ∃ k, w.1.host.hs.addrAt k = some cfg.clientAddr ∧ id = senderId k) := by
  refine h.induction (p := fun s g => ∀ i header id sessionId sampleRate frameSamples codec roster,
    Carries cfg s i header (.welcome id sessionId sampleRate frameSamples codec roster) →
      (g.note i).removals ≤ g.removals ∧ ((g.note i).removals = g.removals →
        ∃ k, s.host.hs.addrAt k = some cfg.clientAddr ∧ id = senderId k)) ?_ ?_
  · rintro i header id sessionId sampleRate frameSamples codec roster ⟨e, hi, _⟩
    cases hi
  intro ls s g l t hrun hp _ hev i header id sessionId sampleRate frameSamples codec roster hcar
  obtain ⟨e, hi, hsrc, hdst, hparse⟩ := hcar
  obtain ⟨hinv, hid, _⟩ := hrun.host_inv
  -- Before the step.
  have before : ((SessionLog.observe cfg g s l t).note i).removals ≤ g.removals ∧
      (((SessionLog.observe cfg g s l t).note i).removals = g.removals →
        ∃ k, s.host.hs.addrAt k = some cfg.clientAddr ∧ id = senderId k) := by
    rcases hev.net_cases (g := g) hi with ⟨hold, hnote⟩ | ⟨hn, _, hnote⟩
    · rw [hnote]
      exact hp _ _ _ _ _ _ _ _ ⟨e, hold, hsrc, hdst, hparse⟩
    · rw [hnote]
      refine ⟨le_rfl, fun _ => ?_⟩
      rcases hrun.sent hev hn with ⟨nowUs, task, _, control, _, _, hpacket, hv, _, hbytes⟩ |
        ⟨_, ⟨_, _, _, _, hpong⟩, _⟩ | ⟨_, haudio, _⟩ | ⟨hsrc', _⟩
      · obtain ⟨hr, _⟩ := hv.packet hpacket
        rw [hbytes] at hparse
        have hc := Payload.control.inj ((parses_stampedDatagram _ _ _ hr).unique hparse).2
        rw [← hdst]
        exact hv.welcome hpacket hc
      · cases (hpong.unique hparse).2
      · exact absurd hparse (haudio _ _)
      · exact absurd (hsrc.symm.trans hsrc') cfg.distinct
  -- The slot goes with a removal only.
  have hrem : (SessionLog.observe cfg g s l t).removals =
      if s.host.holds cfg.clientAddr ∧ ¬ t.host.holds cfg.clientAddr then g.removals + 1
      else g.removals := rfl
  refine ⟨?_, fun heq => ?_⟩
  · rw [hrem]
    split
    · exact Nat.le_succ_of_le before.1
    · exact before.1
  · rw [hrem] at heq
    split at heq
    · have := before.1
      omega
    · rename_i hkept
      obtain ⟨k, hk, rfl⟩ := before.2 heq
      have hheld : s.host.holds cfg.clientAddr = true := senderForAddr_isSome.mpr ⟨k, hk⟩
      refine ⟨k, hev.moves.addrAt_of_held hinv.distinct hk ?_, rfl⟩
      by_contra hgone
      exact hkept ⟨hheld, hgone⟩

end Runs

/-- Identity agreement: a Joined client and the host agree on the client's id, unless the host took
the client's slot away after it had sent the WELCOME that the client accepted. -/
theorem identity_agreement (cfg : SessionConfig) (ls : List SessionLabel) (w : Watched)
    (h : Runs cfg (fun _ _ => True) ls w) (id sessionId : UInt16) (params : SessionParams)
    (hj : w.1.client.cs.phase = .joined id sessionId params) (held : UInt16)
    (hheld : w.1.host.hs.senderForAddr cfg.clientAddr = some held) :
    ∃ i header roster, w.2.accepted = some i ∧ Carries cfg w.1 i header
        (.welcome id sessionId params.sampleRate params.frameSamples params.codec roster) ∧
      ((w.2.note i).removals = w.2.removals → held = id) := by
  obtain ⟨i, header, roster, hi, hcar⟩ := h.accepted id sessionId params hj
  refine ⟨i, header, roster, hi, hcar, fun hsame => ?_⟩
  obtain ⟨k, hk, rfl⟩ := (h.welcomes _ _ _ _ _ _ _ _ hcar).2 hsame
  exact Option.some.inj (hheld.symm.trans (h.host_inv.1.distinct.senderForAddr hk))

/-- The ordinary join. -/
theorem identity_agreement_join : ∃ w, Runs Scenario.cfg (fun _ _ => True)
    (Scenario.hello ++ Scenario.join 20) w ∧
    ∃ i header roster, w.2.accepted = some i ∧ Carries Scenario.cfg w.1 i header
        (.welcome 1 7 48000 120 .pcmS16 roster) ∧
      ((w.2.note i).removals = w.2.removals → (1 : UInt16) = 1) := by
  obtain ⟨w, hr, hp⟩ := Runs.of_test Scenario.cfg (Scenario.hello ++ Scenario.join 20)
    (fun _ _ => true)
    (fun w => w.1.client.cs.phase = .joined 1 7 ⟨48000, 120, .pcmS16⟩ &&
      w.1.host.hs.senderForAddr Scenario.clientAddr = some 1) (c := fun _ _ => True) (fun _ _ _ => trivial)
    (by decide +kernel)
  obtain ⟨hj, hheld⟩ := (Bool.and_eq_true _ _).mp hp
  exact ⟨w, hr, identity_agreement Scenario.cfg _ w hr 1 7 _ (of_decide_eq_true hj) 1
    (of_decide_eq_true hheld)⟩

/-- The first WELCOME is delayed. The host times the client out and gives slot 0 to somebody else, a
copy of the client's HELLO gets it slot 1, and then the client accepts the WELCOME for slot 0. -/
def staleWelcome : List SessionLabel :=
  Scenario.hello ++ [.host (.wake 6000)] ++ Scenario.host 9 6000000 ++ Scenario.rx 4 ++
    [.strangerRecv Scenario.strangerAddr (Scenario.strangerHello Scenario.roomCode) 6001000 6001000,
      .host (.wake 6010)] ++ Scenario.host 10 6010000 ++ Scenario.rx 3 ++
    [.hostRecv 0 6011000 6011000, .host (.wake 6020)] ++ Scenario.host 3 6020000 ++
    Scenario.join 6100

/-- After a removal the two can disagree. -/
theorem identity_disagreement : ¬ ∀ (cfg : SessionConfig) (ls : List SessionLabel) (w : Watched),
    Runs cfg (fun _ _ => True) ls w → ∀ (id sessionId : UInt16) (params : SessionParams),
      w.1.client.cs.phase = .joined id sessionId params → ∀ held : UInt16,
        w.1.host.hs.senderForAddr cfg.clientAddr = some held → held = id := by
  intro hall
  obtain ⟨w, hr, hp⟩ := Runs.of_test Scenario.cfg staleWelcome (fun _ _ => true)
    (fun w => w.1.client.cs.phase = .joined 1 7 ⟨48000, 120, .pcmS16⟩ &&
      w.1.host.hs.senderForAddr Scenario.clientAddr = some 2) (c := fun _ _ => True) (fun _ _ _ => trivial)
    (by decide +kernel)
  obtain ⟨hj, hheld⟩ := (Bool.and_eq_true _ _).mp hp
  have := hall Scenario.cfg staleWelcome w hr 1 7 _ (of_decide_eq_true hj) 2
    (of_decide_eq_true hheld)
  exact absurd this (by decide)

end Session

end OnlineJam
